import Mathlib.Data.List.Perm.Basic
import PacketRelay.Ping.Pool

/-!
The worker pool with several threads at work.

A crew is a pool whose submissions are numbered, together with what they were told and what has
become of their jobs. Each event is one access of one thread to what the threads share, so that a
run is any interleaving of submissions, starts of workers, completions and timeouts. A submission
offers its job first; where no worker took it, reserving a worker and starting it are steps of their
own. A worker that has waited long enough first stops waiting and then looks whether it may leave.

In every run the live count is right and within the limits, a submission is answered at most once,
one that was accepted is processed by exactly one worker and one that was not by none.
-/

set_option autoImplicit false

namespace PacketRelay.Ping

variable {Job : Type}

/-- What a submission is told, and why. -/
inductive Answer
  /-- A waiting worker took the job. -/
  | handed
  /-- A new worker was started for it. -/
  | started
  /-- There was no room for another worker. -/
  | saturated
  /-- The new worker could not be started. -/
  | failed
  deriving DecidableEq

def Answer.accepted : Answer → Bool
  | handed => true
  | started => true
  | saturated => false
  | failed => false

structure Crew (Job : Type) where
  /-- The pool, whose jobs carry the numbers of their submissions. -/
  pool : Pool (Nat × Job)
  /-- Workers that no longer wait and have not yet looked whether they may leave. -/
  expired : Nat
  /-- The jobs submitted; the number of a submission is its place here. -/
  submitted : List Job
  answers : List (Nat × Answer)
  finished : List (Nat × Job)
  deriving DecidableEq

namespace Crew

def new (core max : Nat) : Crew Job := ⟨.new core max, 0, [], [], []⟩

/-- A submission starts by offering its job to the waiting workers. -/
def submit (c : Crew Job) (job : Job) : Crew Job :=
  let number := c.submitted.length
  { c with
    pool := c.pool.offer (number, job)
    submitted := c.submitted ++ [job]
    answers := if 0 < c.pool.idle then c.answers ++ [(number, .handed)] else c.answers }

/-- The `i`-th of the submissions that found no waiting worker asks for a new one. -/
def reserve (c : Crew Job) (i : Nat) : Crew Job :=
  match c.pool.refused[i]? with
  | none => c
  | some task =>
    { c with
      pool := { c.pool with refused := task :: c.pool.refused.eraseIdx i }.reserve
      answers :=
        if c.pool.live < c.pool.max then c.answers else c.answers ++ [(task.1, .saturated)] }

/-- The `i`-th start comes to its end. -/
def start (c : Crew Job) (i : Nat) (ok : Bool) : Crew Job :=
  match c.pool.starting[i]? with
  | none => c
  | some task =>
    { c with
      pool := { c.pool with starting := task :: c.pool.starting.eraseIdx i }.started ok
      answers := c.answers ++ [(task.1, if ok then .started else .failed)] }

/-- The `i`-th busy worker is done with its job and waits for the next. -/
def complete (c : Crew Job) (i : Nat) : Crew Job :=
  match c.pool.busy[i]? with
  | none => c
  | some task => { c with pool := c.pool.complete i, finished := c.finished ++ [task] }

/-- A worker has waited long enough. -/
def expire (c : Crew Job) : Crew Job :=
  if 0 < c.pool.idle then
    { c with pool := { c.pool with idle := c.pool.idle - 1 }, expired := c.expired + 1 }
  else c

/-- A worker that has waited long enough leaves, or else waits again. -/
def retire (c : Crew Job) : Crew Job :=
  if 0 < c.expired then
    { c with pool := { c.pool with idle := c.pool.idle + 1 }.retire, expired := c.expired - 1 }
  else c

inductive Event (Job : Type)
  | submit (job : Job)
  | reserve (i : Nat)
  | start (i : Nat) (ok : Bool)
  | complete (i : Nat)
  | expire
  | retire

def step (c : Crew Job) : Event Job → Crew Job
  | .submit job => c.submit job
  | .reserve i => c.reserve i
  | .start i ok => c.start i ok
  | .complete i => c.complete i
  | .expire => c.expire
  | .retire => c.retire

def run (c : Crew Job) : List (Event Job) → Crew Job
  | [] => c
  | e :: events => (c.step e).run events

/-- Workers that run: waiting, about to leave, or busy. -/
def running (c : Crew Job) : Nat := c.pool.idle + c.expired + c.pool.busy.length

end Crew

/-- How often the number of a submission occurs. -/
def tickets {α : Type} (k : Nat) (l : List (Nat × α)) : Nat := l.countP fun t => t.1 == k

section Tickets

variable {α : Type} {k : Nat} {l : List (Nat × α)} {t : Nat × α} {i : Nat}

@[simp] theorem tickets_nil : tickets k ([] : List (Nat × α)) = 0 := rfl

@[simp] theorem tickets_append (l m : List (Nat × α)) :
    tickets k (l ++ m) = tickets k l + tickets k m := List.countP_append

@[simp] theorem tickets_singleton : tickets k [t] = if t.1 = k then 1 else 0 := by
  simp [tickets, List.countP_cons]

private theorem tickets_pos_iff : 0 < tickets k l ↔ ∃ x, (k, x) ∈ l := by
  simp [tickets, List.countP_pos_iff]

private theorem perm_of_getElem? {β : Type} {l : List β} {t : β} (found : l[i]? = some t) :
    (t :: l.eraseIdx i).Perm l := by
  obtain ⟨within, rfl⟩ := List.getElem?_eq_some_iff.1 found
  exact List.getElem_cons_eraseIdx_perm within

private theorem tickets_eraseIdx (found : l[i]? = some t) :
    tickets k l = (if t.1 = k then 1 else 0) + tickets k (l.eraseIdx i) := by
  rw [tickets, ← (perm_of_getElem? found).countP_eq]
  simp [tickets, List.countP_cons, Nat.add_comm]

private theorem length_eraseIdx_succ {β : Type} {l : List β} {t : β} (found : l[i]? = some t) :
    l.length = (l.eraseIdx i).length + 1 := by
  rw [← (perm_of_getElem? found).length_eq]
  rfl

end Tickets

namespace Crew

variable {c : Crew Job} {i k : Nat} {job : Job} {ok : Bool} {task : Nat × Job}

/-- What an event comes to, and when. -/
inductive Step (c : Crew Job) : Event Job → Crew Job → Prop
  | handed {job : Job} (waiting : 0 < c.pool.idle) : Step c (.submit job)
      { c with
        pool := { c.pool with
          idle := c.pool.idle - 1, busy := c.pool.busy ++ [(c.submitted.length, job)] }
        submitted := c.submitted ++ [job]
        answers := c.answers ++ [(c.submitted.length, .handed)] }
  | refused {job : Job} (waiting : c.pool.idle = 0) : Step c (.submit job)
      { c with
        pool := { c.pool with refused := c.pool.refused ++ [(c.submitted.length, job)] }
        submitted := c.submitted ++ [job] }
  | reserved {i : Nat} {task : Nat × Job} (found : c.pool.refused[i]? = some task)
      (room : c.pool.live < c.pool.max) : Step c (.reserve i)
      { c with
        pool := { c.pool with
          refused := c.pool.refused.eraseIdx i
          live := c.pool.live + 1
          starting := c.pool.starting ++ [task] } }
  | saturated {i : Nat} {task : Nat × Job} (found : c.pool.refused[i]? = some task)
      (full : ¬ c.pool.live < c.pool.max) : Step c (.reserve i)
      { c with
        pool := { c.pool with refused := c.pool.refused.eraseIdx i }
        answers := c.answers ++ [(task.1, .saturated)] }
  | started {i : Nat} {task : Nat × Job} (found : c.pool.starting[i]? = some task) :
      Step c (.start i true)
      { c with
        pool := { c.pool with
          starting := c.pool.starting.eraseIdx i, busy := c.pool.busy ++ [task] }
        answers := c.answers ++ [(task.1, .started)] }
  | failed {i : Nat} {task : Nat × Job} (found : c.pool.starting[i]? = some task) :
      Step c (.start i false)
      { c with
        pool := { c.pool with
          starting := c.pool.starting.eraseIdx i, live := c.pool.live - 1 }
        answers := c.answers ++ [(task.1, .failed)] }
  | completed {i : Nat} {task : Nat × Job} (found : c.pool.busy[i]? = some task) :
      Step c (.complete i)
      { c with
        pool := { c.pool with busy := c.pool.busy.eraseIdx i, idle := c.pool.idle + 1 }
        finished := c.finished ++ [task] }
  | expired (waiting : 0 < c.pool.idle) : Step c .expire
      { c with pool := { c.pool with idle := c.pool.idle - 1 }, expired := c.expired + 1 }
  | left (expired : 0 < c.expired) (spare : c.pool.core < c.pool.live) : Step c .retire
      { c with pool := { c.pool with live := c.pool.live - 1 }, expired := c.expired - 1 }
  | stayed (expired : 0 < c.expired) (core : ¬ c.pool.core < c.pool.live) : Step c .retire
      { c with pool := { c.pool with idle := c.pool.idle + 1 }, expired := c.expired - 1 }
  | nothing {e : Event Job} : Step c e c

private theorem step_cases (c : Crew Job) (e : Event Job) : Step c e (c.step e) := by
  cases e with
  | submit job =>
    rcases Nat.eq_zero_or_pos c.pool.idle with none | waiting
    · simpa [step, submit, Pool.offer, none] using Step.refused none
    · simpa [step, submit, Pool.offer, waiting] using Step.handed waiting
  | reserve i =>
    cases found : c.pool.refused[i]? with
    | none => simpa only [step, reserve, found] using Step.nothing
    | some task =>
      by_cases room : c.pool.live < c.pool.max
      · simpa [step, reserve, Pool.reserve, found, room] using Step.reserved found room
      · simpa [step, reserve, Pool.reserve, found, room] using Step.saturated found room
  | start i ok =>
    cases found : c.pool.starting[i]? with
    | none => simpa only [step, start, found] using Step.nothing
    | some task =>
      cases ok with
      | true => simpa [step, start, Pool.started, found] using Step.started found
      | false => simpa [step, start, Pool.started, found] using Step.failed found
  | complete i =>
    cases found : c.pool.busy[i]? with
    | none => simpa only [step, complete, found] using Step.nothing
    | some task =>
      have within := (List.getElem?_eq_some_iff.1 found).1
      simpa only [step, complete, found, Pool.complete, within, if_true]
        using Step.completed found
  | expire =>
    by_cases waiting : 0 < c.pool.idle
    · simpa only [step, expire, waiting, if_true] using Step.expired waiting
    · simpa only [step, expire, waiting, if_false] using Step.nothing
  | retire =>
    by_cases expired : 0 < c.expired
    · by_cases spare : c.pool.core < c.pool.live
      · simpa [step, retire, Pool.retire, expired, spare] using Step.left expired spare
      · simpa [step, retire, Pool.retire, expired, spare] using Step.stayed expired spare
    · simpa only [step, retire, expired, if_false] using Step.nothing

/-- Submissions with a number that have been accepted. -/
def accepted (c : Crew Job) (k : Nat) : Nat :=
  c.answers.countP fun a => a.1 == k && a.2.accepted

/-- The jobs that are anywhere. -/
def tasks (c : Crew Job) : List (Nat × Job) :=
  c.pool.refused ++ c.pool.starting ++ c.pool.busy ++ c.finished

private theorem mem_tasks {t : Nat × Job} : t ∈ c.tasks ↔
    t ∈ c.pool.refused ∨ t ∈ c.pool.starting ∨ t ∈ c.pool.busy ∨ t ∈ c.finished := by
  simp only [tasks, List.mem_append, or_assoc]

/-- What holds between the steps. -/
structure Sound (c : Crew Job) : Prop where
  /-- The live count is that of the workers that run and of the starts in progress. -/
  live : c.pool.live = c.running + c.pool.starting.length
  bounded : c.pool.live ≤ c.pool.max
  /-- A submission is being dealt with or has its answer, one of them and once. -/
  once : ∀ k, tickets k c.pool.refused + tickets k c.pool.starting + tickets k c.answers =
    if k < c.submitted.length then 1 else 0
  /-- Accepted jobs are with a worker or finished, and no others are. -/
  worked : ∀ k, tickets k c.pool.busy + tickets k c.finished = c.accepted k
  /-- Every job is the one that was submitted under its number. -/
  genuine : ∀ t ∈ c.tasks, c.submitted[t.1]? = some t.2

private theorem Sound.new (core max : Nat) : Sound (Crew.new core max : Crew Job) where
  live := rfl
  bounded := Nat.zero_le _
  once _ := rfl
  worked _ := rfl
  genuine t member := by simp [tasks, Crew.new, Pool.new] at member

private theorem Step.live {e : Event Job} {c' : Crew Job} (step : Step c e c') (sound : Sound c) :
    c'.pool.live = c'.running + c'.pool.starting.length := by
  have live := sound.live
  cases step with
  | started found | failed found | completed found =>
    have fewer := length_eraseIdx_succ found
    simp only [running, List.length_append, List.length_singleton] at live ⊢
    omega
  | _ =>
    simp only [running, List.length_append, List.length_singleton] at live ⊢
    omega

private theorem Step.bounded {e : Event Job} {c' : Crew Job} (step : Step c e c')
    (sound : Sound c) : c'.pool.live ≤ c'.pool.max := by
  have bounded := sound.bounded
  cases step with
  | reserved _ room => exact room
  | failed | left => exact Nat.le_trans (Nat.sub_le _ _) bounded
  | _ => exact bounded

private theorem Step.once {e : Event Job} {c' : Crew Job} (step : Step c e c') (sound : Sound c)
    (k : Nat) : tickets k c'.pool.refused + tickets k c'.pool.starting + tickets k c'.answers =
      if k < c'.submitted.length then 1 else 0 := by
  have once := sound.once k
  cases step with
  | handed | refused =>
    simp only [tickets_append, tickets_singleton, List.length_append, List.length_singleton]
    split at once <;> split <;> split <;> omega
  | reserved found | saturated found | started found | failed found =>
    rw [tickets_eraseIdx found] at once
    simp only [tickets_append, tickets_singleton]
    omega
  | _ => exact once

private theorem Step.worked {e : Event Job} {c' : Crew Job} (step : Step c e c') (sound : Sound c)
    (k : Nat) : tickets k c'.pool.busy + tickets k c'.finished = c'.accepted k := by
  have worked := sound.worked k
  cases step with
  | handed | started =>
    simp only [accepted, tickets_append, tickets_singleton, List.countP_append,
      List.countP_singleton, Answer.accepted, Bool.and_true, beq_iff_eq] at worked ⊢
    omega
  | saturated | failed =>
    simpa [accepted, Answer.accepted] using worked
  | completed found =>
    rw [tickets_eraseIdx found] at worked
    simp only [accepted, tickets_append, tickets_singleton] at worked ⊢
    omega
  | _ => exact worked

private theorem Step.tasks {e : Event Job} {c' : Crew Job} (step : Step c e c') {t : Nat × Job}
    (member : t ∈ c'.tasks) : t ∈ c.tasks ∨
      ∃ job, t = (c.submitted.length, job) ∧ c'.submitted = c.submitted ++ [job] := by
  have back : ∀ {l : List (Nat × Job)} {i : Nat}, t ∈ l.eraseIdx i → t ∈ l :=
    List.mem_of_mem_eraseIdx
  have here : ∀ {l : List (Nat × Job)} {i : Nat} {task : Nat × Job}, l[i]? = some task →
      t = task → t ∈ l := fun found same => same ▸ List.mem_of_getElem? found
  rw [mem_tasks] at member ⊢
  cases step with
  | @handed job | @refused job =>
    simp only [List.mem_append, List.mem_singleton] at member
    have : (t ∈ c.pool.refused ∨ t ∈ c.pool.starting ∨ t ∈ c.pool.busy ∨ t ∈ c.finished) ∨
        t = (c.submitted.length, job) := by tauto
    exact this.imp_right fun same => ⟨job, same, rfl⟩
  | reserved found | saturated found | started found | failed found | completed found =>
    have := here found
    simp only [List.mem_append, List.mem_singleton] at member
    tauto
  | _ => exact .inl member

private theorem Step.submitted {e : Event Job} {c' : Crew Job} (step : Step c e c') :
    c.submitted <+: c'.submitted := by
  cases step with
  | handed | refused => exact List.prefix_append _ _
  | _ => exact List.prefix_rfl

private theorem Step.sound {e : Event Job} {c' : Crew Job} (step : Step c e c') (sound : Sound c) :
    Sound c' where
  live := step.live sound
  bounded := step.bounded sound
  once := step.once sound
  worked := step.worked sound
  genuine t member := by
    rcases step.tasks member with old | ⟨job, rfl, submitted⟩
    · obtain ⟨later, submitted⟩ := step.submitted
      have held := sound.genuine t old
      rw [← submitted, List.getElem?_append_left (List.getElem?_eq_some_iff.1 held).1, held]
    · rw [submitted]
      exact List.getElem?_concat_length

private theorem Sound.run (sound : Sound c) (events : List (Event Job)) : Sound (c.run events) := by
  induction events generalizing c with
  | nil => exact sound
  | cons e events ih => exact ih ((step_cases c e).sound sound)

private theorem Step.limits {e : Event Job} {c' : Crew Job} (step : Step c e c') :
    c'.pool.core = c.pool.core ∧ c'.pool.max = c.pool.max := by
  cases step <;> exact ⟨rfl, rfl⟩

private theorem run_limits (c : Crew Job) (events : List (Event Job)) :
    (c.run events).pool.core = c.pool.core ∧ (c.run events).pool.max = c.pool.max := by
  induction events generalizing c with
  | nil => exact ⟨rfl, rfl⟩
  | cons e events ih =>
    obtain ⟨core, max⟩ := (step_cases c e).limits
    rw [run, ← core, ← max]
    exact ih _

private theorem run_append (c : Crew Job) (first second : List (Event Job)) :
    c.run (first ++ second) = (c.run first).run second := by
  induction first generalizing c with
  | nil => rfl
  | cons e first ih => exact ih _

/-! What a submission was told stays so. -/

private theorem Step.answers {e : Event Job} {c' : Crew Job} (step : Step c e c') :
    c.answers <+: c'.answers := by
  cases step with
  | handed | saturated | started | failed => exact List.prefix_append _ _
  | _ => exact List.prefix_rfl

private theorem run_answers (c : Crew Job) (events : List (Event Job)) :
    c.answers <+: (c.run events).answers := by
  induction events generalizing c with
  | nil => exact List.prefix_rfl
  | cons e events ih => exact (step_cases c e).answers.trans (ih _)

private theorem Sound.answered (sound : Sound c) {a : Answer} (told : (k, a) ∈ c.answers) :
    tickets k c.pool.refused = 0 ∧ tickets k c.pool.starting = 0 ∧ tickets k c.answers = 1 ∧
      k < c.submitted.length := by
  have once := sound.once k
  have some : 0 < tickets k c.answers := tickets_pos_iff.2 ⟨a, told⟩
  split at once <;> omega

private theorem Sound.countP_answers (sound : Sound c) {a : Answer} (told : (k, a) ∈ c.answers)
    (p : Answer → Bool) :
    (c.answers.countP fun b => b.1 == k && p b.2) = if p a then 1 else 0 := by
  have single : (c.answers.filter fun b => b.1 == k).length = 1 := by
    rw [← List.countP_eq_length_filter]
    exact (sound.answered told).2.2.1
  have member : (k, a) ∈ c.answers.filter fun b => b.1 == k := by simp [told]
  obtain ⟨b, only⟩ := List.length_eq_one_iff.1 single
  rw [only, List.mem_singleton] at member
  have both : (c.answers.countP fun b => b.1 == k && p b.2) =
      (c.answers.filter fun b => b.1 == k).countP fun b => p b.2 := by
    rw [List.countP_filter]
    simp only [Bool.and_comm]
  rw [both, only, ← member, List.countP_singleton]

/-! What the submissions add to the live count. -/

/-- The submission that makes a step. -/
def Event.maker? (c : Crew Job) : Event Job → Option Nat
  | .submit _ => some c.submitted.length
  | .reserve i => (c.pool.refused[i]?).map Prod.fst
  | .start i _ => (c.pool.starting[i]?).map Prod.fst
  | .complete _ => none
  | .expire => none
  | .retire => none

/-- What the steps of one submission add to the live count in the course of a run. -/
def charge (k : Nat) (c : Crew Job) : List (Event Job) → Int
  | [] => 0
  | e :: events =>
    (if e.maker? c = some k then ((c.step e).pool.live : Int) - c.pool.live else 0) +
      charge k (c.step e) events

/-- The live workers that there are because of one submission. -/
def stake (c : Crew Job) (k : Nat) : Nat :=
  tickets k c.pool.starting + c.answers.countP fun a => a.1 == k && a.2 == .started

private theorem Step.stake {e : Event Job} {c' : Crew Job} (step : Step c e c') (sound : Sound c)
    (k : Nat) : (c'.stake k : Int) =
      c.stake k + if e.maker? c = some k then (c'.pool.live : Int) - c.pool.live else 0 := by
  have live := sound.live
  cases step with
  | reserved found =>
    simp [Crew.stake, Event.maker?, found]
    split <;> omega
  | started found =>
    simp [Crew.stake, Event.maker?, tickets_eraseIdx found]
    split <;> omega
  | failed found =>
    have fewer := length_eraseIdx_succ found
    simp [Crew.stake, Event.maker?, found, tickets_eraseIdx found]
    split <;> omega
  | saturated found => simp [Crew.stake, Event.maker?, found]
  | _ => simp [Crew.stake, Event.maker?]

private theorem run_stake (sound : Sound c) (k : Nat) (events : List (Event Job)) :
    ((c.run events).stake k : Int) = c.stake k + charge k c events := by
  induction events generalizing c with
  | nil => simp [run, charge]
  | cons e events ih =>
    have step := step_cases c e
    rw [run, ih (step.sound sound), step.stake sound, charge]
    omega

/-! How often a job is begun. -/

/-- How many workers have begun the job of a submission in the course of a run. -/
def begun (k : Nat) (c : Crew Job) : List (Event Job) → Nat
  | [] => 0
  | e :: events =>
    (tickets k (c.step e).pool.busy - tickets k c.pool.busy) + begun k (c.step e) events

private theorem Step.begun {e : Event Job} {c' : Crew Job} (step : Step c e c') (k : Nat) :
    c'.accepted k = c.accepted k + (tickets k c'.pool.busy - tickets k c.pool.busy) := by
  cases step with
  | handed | started => simp [accepted, Answer.accepted, List.countP_singleton]
  | completed found => simp [accepted, tickets_eraseIdx found]
  | _ => simp [accepted, Answer.accepted]

private theorem run_begun (c : Crew Job) (k : Nat) (events : List (Event Job)) :
    (c.run events).accepted k = c.accepted k + begun k c events := by
  induction events generalizing c with
  | nil => rfl
  | cons e events ih =>
    rw [run, ih, (step_cases c e).begun, begun]
    omega

private theorem run_complete (c : Crew Job) :
    (c.run (List.replicate c.pool.busy.length (.complete 0))).finished =
      c.finished ++ c.pool.busy := by
  generalize held : c.pool.busy = busy
  induction busy generalizing c with
  | nil => simp [run]
  | cons task rest ih =>
    have found : c.pool.busy[0]? = some task := by simp [held]
    have done : (c.step (.complete 0)).pool.busy = rest := by
      simp [step, complete, Pool.complete, held]
    have finished : (c.step (.complete 0)).finished = c.finished ++ [task] := by
      simp [step, complete, found]
    rw [List.length_cons, List.replicate_succ, run, ih _ done, finished, List.append_assoc]
    rfl

/-! What an answer says about the crew. -/

/-- A step gives a submission its answer, for the reason that the answer stands for. -/
def Event.Tells (c : Crew Job) (k : Nat) : Answer → Event Job → Prop
  | .handed, e => ∃ job, e = .submit job ∧ c.submitted.length = k ∧ 0 < c.pool.idle
  | .started, e => ∃ i, e = .start i true ∧ (c.pool.starting[i]?).map Prod.fst = some k
  | .saturated, e => ∃ i, e = .reserve i ∧ (c.pool.refused[i]?).map Prod.fst = some k ∧
      c.pool.live = c.pool.max
  | .failed, e => ∃ i, e = .start i false ∧ (c.pool.starting[i]?).map Prod.fst = some k

private theorem Step.tells {e : Event Job} {c' : Crew Job} (step : Step c e c') (sound : Sound c)
    {a : Answer} (told : (k, a) ∈ c'.answers) : (k, a) ∈ c.answers ∨ e.Tells c k a := by
  cases step with
  | @handed job waiting =>
    refine (List.mem_append.1 told).imp_right fun new => ?_
    obtain ⟨rfl, rfl⟩ := Prod.mk.inj (List.mem_singleton.1 new)
    exact ⟨job, rfl, rfl, waiting⟩
  | @saturated i task found full =>
    refine (List.mem_append.1 told).imp_right fun new => ?_
    obtain ⟨rfl, rfl⟩ := Prod.mk.inj (List.mem_singleton.1 new)
    exact ⟨i, rfl, by rw [found]; rfl, Nat.le_antisymm sound.bounded (Nat.not_lt.1 full)⟩
  | @started i task found | @failed i task found =>
    refine (List.mem_append.1 told).imp_right fun new => ?_
    obtain ⟨rfl, rfl⟩ := Prod.mk.inj (List.mem_singleton.1 new)
    exact ⟨i, rfl, by rw [found]; rfl⟩
  | _ => exact .inl told

/-- A submission finds no waiting worker. -/
def Event.Refuses (c : Crew Job) (k : Nat) (e : Event Job) : Prop :=
  ∃ job, e = .submit job ∧ c.submitted.length = k ∧ c.pool.idle = 0

private theorem Step.refuses {e : Event Job} {c' : Crew Job} (step : Step c e c')
    (refused : 0 < tickets k c'.pool.refused) : 0 < tickets k c.pool.refused ∨ e.Refuses c k := by
  cases step with
  | @refused job waiting =>
    by_cases new : c.submitted.length = k
    · exact .inr ⟨job, rfl, new, waiting⟩
    · left
      simpa [new] using refused
  | reserved found | saturated found =>
    left
    rw [tickets_eraseIdx found]
    exact Nat.lt_of_lt_of_le refused (Nat.le_add_left _ _)
  | _ => exact .inl refused

private theorem run_reaches {P : Crew Job → Prop} {Q : Crew Job → Event Job → Prop}
    (stays : ∀ {c : Crew Job} (e : Event Job), Sound c → P (c.step e) → P c ∨ Q c e)
    (sound : Sound c) (events : List (Event Job)) (reached : P (c.run events)) :
    P c ∨ ∃ before e after, events = before ++ e :: after ∧ Q (c.run before) e := by
  induction events generalizing c with
  | nil => exact .inl reached
  | cons e events ih =>
    rcases ih ((step_cases c e).sound sound) reached with first | ⟨before, e', after, rfl, at'⟩
    · exact (stays e sound first).imp_right fun now => ⟨[], e, events, rfl, now⟩
    · exact .inr ⟨e :: before, e', after, rfl, at'⟩

private theorem Step.timeout {e : Event Job} {c' : Crew Job} (step : Step c e c')
    (timeout : e = .expire ∨ e = .retire) : c'.pool.live = c.pool.live ∨
      c'.pool.live + 1 = c.pool.live ∧ c.pool.core ≤ c'.pool.live := by
  rcases timeout with rfl | rfl
  · cases step <;> exact .inl rfl
  · cases step with
    | left expired spare =>
      right
      show c.pool.live - 1 + 1 = c.pool.live ∧ c.pool.core ≤ c.pool.live - 1
      omega
    | _ => exact .inl rfl

private theorem Sound.processed (sound : Sound c) {a : Answer} (told : (k, a) ∈ c.answers) :
    tickets k c.pool.busy + tickets k c.finished = (if a.accepted then 1 else 0) ∧
      tickets k c.tasks = if a.accepted then 1 else 0 := by
  have count : c.accepted k = if a.accepted then 1 else 0 := sound.countP_answers told _
  have worked := sound.worked k
  obtain ⟨refused, starting, _⟩ := sound.answered told
  refine ⟨by rw [worked, count], ?_⟩
  rw [← count, ← worked, tasks]
  simp only [tickets_append]
  omega

private theorem charge_of_told {core max : Nat} {events : List (Event Job)} {a : Answer}
    (told : (k, a) ∈ ((new core max).run events).answers) :
    charge k (new core max) events = if a = .started then 1 else 0 := by
  have sound : Sound (new core max : Crew Job) := .new core max
  have reached := sound.run events
  have stake := run_stake sound k events
  have none : (new core max : Crew Job).stake k = 0 := rfl
  have started := reached.countP_answers told (· == .started)
  rw [Crew.stake, (reached.answered told).2.1, started, none] at stake
  by_cases new : a = .started <;> simp_all

private theorem begun_of_told {core max : Nat} {events : List (Event Job)} {a : Answer}
    (told : (k, a) ∈ ((new core max).run events).answers) :
    begun k (new core max) events = if a.accepted then 1 else 0 := by
  have count : ((new core max).run events).accepted k = if a.accepted then 1 else 0 :=
    ((Sound.new core max).run events).countP_answers told _
  rw [← count, run_begun, show (new core max : Crew Job).accepted k = 0 from rfl, Nat.zero_add]

private theorem tells_of_told {core max : Nat} {events : List (Event Job)} {a : Answer}
    (told : (k, a) ∈ ((new core max).run events).answers) :
    ∃ before e after, events = before ++ e :: after ∧ e.Tells ((new core max).run before) k a ∧
      (a = .saturated → ∃ earlier offer between, before = earlier ++ offer :: between ∧
        offer.Refuses ((new core max).run earlier) k) := by
  have start : Sound (new core max : Crew Job) := .new core max
  rcases run_reaches (P := fun c => (k, a) ∈ c.answers)
      (fun e sound => (step_cases _ e).tells sound) start events told with
    old | ⟨before, e, after, rfl, tells⟩
  · cases old
  · refine ⟨before, e, after, rfl, tells, ?_⟩
    rintro rfl
    obtain ⟨i, rfl, found, full⟩ := tells
    obtain ⟨task, held, rfl⟩ := Option.map_eq_some_iff.1 found
    have refused : 0 < tickets task.1 ((new core max).run before).pool.refused :=
      tickets_pos_iff.2 ⟨task.2, List.mem_of_getElem? held⟩
    rcases run_reaches (P := fun c => 0 < tickets task.1 c.pool.refused)
        (fun e _ => (step_cases _ e).refuses) start before refused with
      old | ⟨earlier, offer, between, rfl, refuses⟩
    · cases old
    · exact ⟨earlier, offer, between, rfl, refuses⟩

/-- A pool of workers, whatever its threads do and in whichever order: the live count counts the
workers and the starts and keeps its limits; every submission is answered at most once; an accepted
job is begun by one worker once, and finished once when the busy workers are done; a declined one is
never begun and has left no trace in the live count. -/
theorem run_new_safe (core max : Nat) (events : List (Event Job)) :
    let c := (new core max).run events
    (c.pool.live = c.running + c.pool.starting.length ∧ c.pool.live ≤ max) ∧
    (∀ e, e = .expire ∨ e = .retire → (c.step e).pool.live = c.pool.live ∨
      (c.step e).pool.live + 1 = c.pool.live ∧ core ≤ (c.step e).pool.live) ∧
    (∀ k, tickets k c.pool.refused + tickets k c.pool.starting + tickets k c.answers =
      if k < c.submitted.length then 1 else 0) ∧
    (∀ k a, (k, a) ∈ c.answers → a.accepted = true →
      begun k (new core max) events = 1 ∧
      tickets k c.pool.busy + tickets k c.finished = 1 ∧
      tickets k (c.run (List.replicate c.pool.busy.length (.complete 0))).finished = 1 ∧
      ∀ t ∈ c.tasks, t.1 = k → c.submitted[k]? = some t.2) ∧
    ∀ k a, (k, a) ∈ c.answers → a.accepted = false →
      (∀ later, begun k (new core max) (events ++ later) = 0 ∧
        tickets k (c.run later).tasks = 0 ∧ charge k (new core max) (events ++ later) = 0) ∧
      ∃ before e after, events = before ++ e :: after ∧ e.Tells ((new core max).run before) k a ∧
        (a = .saturated → ∃ earlier offer between, before = earlier ++ offer :: between ∧
          offer.Refuses ((new core max).run earlier) k) := by
  intro c
  have sound : Sound c := (Sound.new core max).run events
  obtain ⟨cores, maxs⟩ := run_limits (new core max : Crew Job) events
  refine ⟨⟨sound.live, Nat.le_trans sound.bounded (Nat.le_of_eq maxs)⟩, ?_, sound.once, ?_, ?_⟩
  · intro e timeout
    have kept := (step_cases c e).timeout timeout
    rwa [cores] at kept
  · intro k a told accepted
    obtain ⟨worked, _⟩ := sound.processed told
    rw [accepted] at worked
    refine ⟨?_, worked, ?_, ?_⟩
    · rw [begun_of_told told, accepted]
      rfl
    · rw [run_complete, tickets_append, Nat.add_comm]
      exact worked
    · rintro t member rfl
      exact sound.genuine t member
  · intro k a told declined
    refine ⟨?_, tells_of_told told⟩
    intro later
    have still : (k, a) ∈ ((new core max).run (events ++ later)).answers := by
      rw [run_append]
      exact (run_answers c later).subset told
    refine ⟨?_, ?_, ?_⟩
    · rw [begun_of_told still, declined]
      rfl
    · rw [((sound.run later).processed ((run_answers c later).subset told)).2, declined]
      rfl
    · rw [charge_of_told still, if_neg]
      rintro rfl
      cases declined

/-- Three submissions to at most one worker: the second gets the worker, which cannot be started,
the first finds no room meanwhile, the third is processed. -/
theorem run_new_safe_contended :
    let events : List (Event Char) :=
      [.submit 'a', .submit 'b', .submit 'c', .reserve 1, .reserve 0, .start 0 false, .reserve 0,
        .start 0 true, .complete 0, .expire, .retire]
    let c := (new 0 1).run events
    (0, Answer.saturated) ∈ c.answers ∧ (1, Answer.failed) ∈ c.answers ∧
      (2, Answer.started) ∈ c.answers ∧ c.pool.live = 0 ∧
      begun 0 (new 0 1) events = 0 ∧ charge 1 (new 0 1) events = 0 ∧
      begun 2 (new 0 1) events = 1 := by
  intro events c
  have saturated : (0, Answer.saturated) ∈ c.answers := by decide
  have failed : (1, Answer.failed) ∈ c.answers := by decide
  have started : (2, Answer.started) ∈ c.answers := by decide
  obtain ⟨_, _, _, processed, declined⟩ := run_new_safe 0 1 events
  refine ⟨saturated, failed, started, by decide, ?_, ?_, (processed 2 _ started rfl).1⟩
  · simpa using ((declined 0 _ saturated rfl).1 []).1
  · simpa using ((declined 1 _ failed rfl).1 []).2.2

/-- Submitting while nothing else is going on is making the steps of a submission in a row. -/
theorem submit_alone (c : Crew Job) (job : Job) (refused : c.pool.refused = [])
    (starting : c.pool.starting = []) :
    let alone := c.run [.submit job, .reserve 0, .start 0 true]
    let (pool, accepted) := c.pool.submit (c.submitted.length, job)
    alone.pool = pool ∧
      alone.answers = c.answers ++ [(c.submitted.length,
        if 0 < c.pool.idle then .handed else if accepted then .started else .saturated)] := by
  by_cases idle : 0 < c.pool.idle
  · simp [run, step, submit, reserve, start, Pool.submit, Pool.offer, idle, refused, starting]
  · by_cases room : c.pool.live < c.pool.max
    · simp [run, step, submit, reserve, start, Pool.submit, Pool.offer, Pool.reserve, Pool.started,
        idle, room, refused, starting]
    · simp [run, step, submit, reserve, start, Pool.submit, Pool.offer, Pool.reserve,
        idle, room, refused, starting]

end Crew

end PacketRelay.Ping
