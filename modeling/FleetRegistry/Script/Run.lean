import FleetRegistry.Script.Step
import FleetRegistry.Script.Supply

/-!
Running a script: one step after the other, each answered in writing. A step that cannot be decoded
changes nothing. A step may be repeated; then only its last answer counts.
-/
namespace FleetRegistry.Script

/-- What answers steps, and changes as it does so. -/
abbrev Runner (State : Type) := State → Step → Supply → Decoded (Json × State × Supply)

structure Progress (State : Type) where
  state : State
  supply : Supply
  answer : Json := .null

namespace Progress

variable {State : Type}

/-- Answers a step once. The failure says how a step that cannot be decoded is answered. -/
def once (run : Runner State) (failure : String → Json) (fields : Json.Members)
    (p : Progress State) : Progress State :=
  match (Step.ofFields fields).bind fun step => run p.state step p.supply with
  | .ok (answer, state, supply) => ⟨state, supply.next, answer⟩
  | .error name => { p with answer := failure name }

/-- Answers a step as often as it asks for, and masks the last answer. -/
def step (run : Runner State) (failure : String → Json) (value : Json) (p : Progress State) :
    Progress State :=
  let fields := ((p.supply.unmask value).members?).getD []
  let times := ((fields.find? "times").bind number?).getD 1
  let done := times.repeat (once run failure fields) { p with answer := .null }
  let (answer, supply) := Supply.mask done.answer.canonical done.supply
  ⟨done.state, supply, answer⟩

end Progress

def run {State : Type} (run : Runner State) (failure : String → Json) (state : State)
    (supply : Supply) (steps : List Json) : List Json :=
  let start : List Json × Progress State := ([], ⟨state, supply, .null⟩)
  (steps.foldl (fun (answers, p) value =>
    let p := p.step run failure value
    (p.answer :: answers, p)) start).1.reverse

end FleetRegistry.Script
