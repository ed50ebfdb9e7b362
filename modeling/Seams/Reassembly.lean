import Seams.Edit
import Seams.Token

/-! # Reassembly
A stream of tokens is written out with a set of edits applied. What no edit replaces is written as
it stands in the source.
Main definitions:
* **`TokenStream.weave`** — the pass over tokens and edits together;
* **`TokenStream.reassemble`** — the source with the edits applied. -/

namespace Seams

namespace TokenStream

/-- Write tokens, the first of which has the given position, after what is written already, and
use up edits in ascending order. The second result is the edits that are left. -/
def weave (s : TokenStream) (position : Nat) (written : Bytes) :
    List Token → List Edit → Except EditError (Bytes × List Edit)
  | [], edits => .ok (written, edits)
  | t :: ts, [] => weave s (position + 1) (written ++ s.textOf t) ts []
  | t :: ts, e :: es =>
    if e.position = position then
      if e.expected.accepts (s.textOf t) then
        weave s (position + 1) (written ++ bytesOf e.replacement) ts es
      else .error (.mismatch position e.patcher (s.textOf t))
    else weave s (position + 1) (written ++ s.textOf t) ts (e :: es)

/-- The source with each edited token replaced. Every edit must find its token, and the token must
read as the edit expects. -/
def reassemble (s : TokenStream) (edits : EditSet) : Except EditError Bytes :=
  match s.weave 0 ByteArray.empty s.tokens.toList edits.toList with
  | .error e => .error e
  | .ok (written, []) => .ok written
  | .ok (_, left) => .error (.positionNotFound (left.map Edit.position) s.size)

end TokenStream

end Seams
