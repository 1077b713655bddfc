import FleetRegistry.Request.Call

/-!
Listing all objects page by page, over any way to list one page. Each page but the first is asked
for with the token of the one before it.
-/
namespace FleetRegistry

abbrev Lister (k : Kind) (State : Type) := ListOptions → State → Outcome (Page k) × State

namespace Lister

variable {k : Kind} {State : Type}

/-- The objects of this page and of all pages after it, unless there are more than so many pages. -/
def pages (list : Lister k State) :
    Nat → ListOptions → State → Option (Outcome (List (Object k))) × State
  | 0, _, state => (none, state)
  | n + 1, options, state =>
    match list options state with
    | (.error error, state) => (some (.error error), state)
    | (.ok page, state) =>
      match page.continueToken with
      | none => (some (.ok page.items), state)
      | some token =>
        let (rest, state) := pages list n { options with continueToken := some token } state
        (rest.map fun outcome => outcome.map (page.items ++ ·), state)

/-- All objects that some options select, so many a page. -/
def all (list : Lister k State) (maxPages pageSize : Nat) (options : ListOptions) (state : State) :
    Option (Outcome (List (Object k))) × State :=
  list.pages maxPages { options with limit := some pageSize } state

end Lister

def Answer.page? {k : Kind} {Stream : Type} : Answer k Stream → Option (Page k)
  | .page found => some found
  | _ => none

end FleetRegistry
