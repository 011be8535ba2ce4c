namespace MockAudit

structure Span where
  start : UInt64
  len : UInt64
deriving DecidableEq, Inhabited

namespace Span

def maxOffset : UInt64 := 0xFFFFFFFFFFFFFFFF

/-- Exclusive end, capped at `maxOffset` when start and length together exceed it. -/
def stop (s : Span) : UInt64 :=
  if s.start.toNat + s.len.toNat < UInt64.size then s.start + s.len else maxOffset

def covers (s t : Span) : Bool :=
  s.start ≤ t.start && t.stop ≤ s.stop

end Span
end MockAudit
