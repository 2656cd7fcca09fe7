import AuditSwarm.Python.Lines

/-!
# Quotes by line numbers

`extract_quote_by_lines` of `llm_gateway.py`: the quote a model cites by its line numbers.
-/

namespace AuditSwarm

open Python

namespace Gateway

def extractQuoteByLines (rawPayload : Str) (startLine : Int) (endLine : Option Int) : Str :=
  let lines := splitlines rawPayload
  if lines = [] then []
  else
    let sIdx := max 1 (min startLine lines.length) - 1
    let eIdx := max (sIdx + 1) (min (endLine.getD startLine) lines.length)
    join (lit "\n") ((lines.take eIdx.toNat).drop sIdx.toNat)

/-- A line range within a payload; without an end it is one line. -/
structure WithinPayload (rawPayload : Str) (startLine : Int) (endLine : Option Int) : Prop where
  first : 1 ≤ startLine
  ordered : startLine ≤ endLine.getD startLine
  last : endLine.getD startLine ≤ (splitlines rawPayload).length

end Gateway

end AuditSwarm
