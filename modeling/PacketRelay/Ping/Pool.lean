/-!
An elastic pool of workers that each do one job at a time.

A job is handed to a worker that waits, or else a new worker is started for it, up to a limit; if
neither is possible the job is dropped. A worker that has waited long enough leaves, unless that
would leave fewer than the core. The number of live workers counts starts in progress.

Offering a job to a waiting worker and reserving a new worker are separate steps, since workers
finish and leave in between.
-/

set_option autoImplicit false

namespace PacketRelay.Ping

structure Pool (Job : Type) where
  core : Nat
  max : Nat
  /-- Live workers, including those being started. -/
  live : Nat
  /-- Workers waiting for a job. -/
  idle : Nat
  /-- Jobs that no waiting worker took and that have no new worker yet. -/
  refused : List Job
  /-- Jobs whose worker is being started. -/
  starting : List Job
  busy : List Job
  deriving DecidableEq

namespace Pool

variable {Job : Type}

def new (core max : Nat) : Pool Job := ⟨core, max, 0, 0, [], [], []⟩

/-- Offers a job to the waiting workers. -/
def offer (p : Pool Job) (job : Job) : Pool Job :=
  if 0 < p.idle then { p with idle := p.idle - 1, busy := p.busy ++ [job] }
  else { p with refused := p.refused ++ [job] }

/-- Reserves a new worker for the longest refused job, or drops the job. -/
def reserve (p : Pool Job) : Pool Job :=
  match p.refused with
  | [] => p
  | job :: rest =>
    if p.live < p.max then
      { p with refused := rest, live := p.live + 1, starting := p.starting ++ [job] }
    else { p with refused := rest }

/-- The worker of the longest waiting start comes up with its job, or fails to and is given up. -/
def started (p : Pool Job) (ok : Bool) : Pool Job :=
  match p.starting with
  | [] => p
  | job :: rest =>
    if ok then { p with starting := rest, busy := p.busy ++ [job] }
    else { p with starting := rest, live := p.live - 1 }

/-- The worker on the `i`-th job is done and waits for another. -/
def complete (p : Pool Job) (i : Nat) : Pool Job :=
  if i < p.busy.length then { p with busy := p.busy.eraseIdx i, idle := p.idle + 1 } else p

/-- A waiting worker leaves for lack of jobs. -/
def retire (p : Pool Job) : Pool Job :=
  if 0 < p.idle ∧ p.core < p.live then { p with idle := p.idle - 1, live := p.live - 1 } else p

/-- All waiting workers that may leave do so. -/
def retireAll (p : Pool Job) : Pool Job := p.idle.repeat retire p

/-- Submits a job when nothing else is going on. Also gives whether it was accepted. -/
def submit (p : Pool Job) (job : Job) : Pool Job × Bool :=
  if 0 < p.idle then (p.offer job, true)
  else if p.live < p.max then (((p.offer job).reserve).started true, true)
  else ((p.offer job).reserve, false)

end Pool
end PacketRelay.Ping
