/-!
The control flags of a TCP segment.
-/

set_option autoImplicit false

namespace PacketRelay.Tcp

structure Flags where
  bits : UInt8
  deriving DecidableEq

namespace Flags

def fin : Flags := ⟨0x01⟩
def syn : Flags := ⟨0x02⟩
def rst : Flags := ⟨0x04⟩
def psh : Flags := ⟨0x08⟩
def ack : Flags := ⟨0x10⟩

def has (f g : Flags) : Bool := f.bits &&& g.bits == g.bits

def union (f g : Flags) : Flags := ⟨f.bits ||| g.bits⟩

instance : Union Flags := ⟨union⟩

end Flags
end PacketRelay.Tcp
