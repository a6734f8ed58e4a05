/-!
# Source spans

A span is a range of a source text, given by its byte offset and its length in bytes of the UTF-8
encoding. Every token, every node and most errors carry one. Spans form a join semilattice on
non-degenerate ranges: `Span.join` is the smallest span that covers both of its arguments.
-/

namespace ProofScript

/-- A range of a source text, counted in bytes. -/
structure Span where
  /-- Where the range starts. -/
  offset : Nat
  /-- How many bytes the range covers. -/
  length : Nat
  deriving DecidableEq, Repr, Inhabited

namespace Span

/-- The span of a node that was not read from a source text. -/
def none : Span := ⟨0, 0⟩

/-- The offset just past the end of a span. -/
def stop (s : Span) : Nat := s.offset + s.length

/-- The span from `start` up to, and not including, `stop`. -/
def between (start stop : Nat) : Span := ⟨start, stop - start⟩

/-- The smallest span that covers both `a` and `b`. -/
def join (a b : Span) : Span := between (min a.offset b.offset) (max a.stop b.stop)

/-- A joined span starts at the smaller of the two offsets. -/
theorem join_offset (a b : Span) : (join a b).offset = min a.offset b.offset := rfl

/-- A joined span stops at the larger of the two stops. -/
theorem join_stop (a b : Span) : (join a b).stop = max a.stop b.stop := by
  simp only [join, between, stop]
  omega

end Span

end ProofScript
