/-!
Paths to fields inside an object, in their written form: `spec.items[0].name`. The empty path
stands for the whole object.
-/
namespace FleetRegistry

structure FieldPath where
  text : String
  deriving DecidableEq, Repr, Inhabited

namespace FieldPath

def root : FieldPath := ⟨""⟩

def ofField (name : String) : FieldPath := ⟨name⟩

def child (path : FieldPath) (name : String) : FieldPath :=
  if path.text.isEmpty then ⟨name⟩ else ⟨path.text ++ "." ++ name⟩

def index (path : FieldPath) (position : Nat) : FieldPath :=
  ⟨path.text ++ "[" ++ Nat.repr position ++ "]"⟩

def key (path : FieldPath) (name : String) : FieldPath :=
  ⟨path.text ++ "[" ++ name ++ "]"⟩

end FieldPath

end FleetRegistry
