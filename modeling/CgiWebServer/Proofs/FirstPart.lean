/-
What the extractors make of a first part of a request.

Each of them searches its buffer from the front, so what it has found in
a first part it finds in the whole as well. The target and the method
are settled once they are there, the header lines once the blank line is,
wherever the whole goes on to. The body is not: it ends at the first line
end behind the blank line, or at the buffer's end where there is none, so
it is the same in the whole only if that has its line end at the same
place (`firstLine_append_iff`).
-/
import CgiWebServer.Proofs.RequestTarget

namespace CgiWebServer

open Scan

variable {part more : Bytes}

-- ========================================================== the first line

/-- The first line ends with a CRLF and holds a space. -/
def HasMethod (buffer : Bytes) : Prop :=
  ∃ line, requestLineOf buffer = some line ∧ 32 ∈ line

theorem HasMethod.crlf {buffer : Bytes} (h : HasMethod buffer) :
    crlf <:+: buffer := by
  obtain ⟨line, hline, -⟩ := h
  obtain ⟨i, hfind, -⟩ := Option.map_eq_some_iff.mp hline
  exact infix_of_find hfind

-- ============================================================== the headers

variable {behind : Bytes}

end CgiWebServer
