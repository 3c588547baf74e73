import MillGateway.Machine.Status

/-! The status of the last poll, and whether that poll found the controller alive. -/

namespace MillGateway

open Machine

structure Cache where
  alive : Bool := false
  latest : Option Status := none
  deriving Repr, Inhabited

namespace Cache

/-- The latest status, which counts only while the controller is alive. -/
def snapshot (c : Cache) : Option Status :=
  if c.alive then c.latest else none

def store (_ : Cache) (s : Status) : Cache :=
  ⟨true, some s⟩

def markDown (_ : Cache) : Cache :=
  ⟨false, none⟩

end Cache

end MillGateway
