import FleetRegistry.Proofs.Store.Entries
import FleetRegistry.Proofs.Watch.Listing

/-!
The two ways to come to an object: by its key, and by the lists of its namespace. A key is made of a
namespace and a name, and gives an object without a namespace the empty one, but no list of a
namespace shows such an object. All others are got from where they are listed, and listed where they
are got from.
-/
namespace FleetRegistry

variable {k : Kind}

/-- Whether an object lacks the namespace that its kind calls for. -/
def Object.LacksNamespace (o : Object k) : Prop := k.namespaced = true ∧ o.metadata.ns = none

theorem Object.isIn_some_iff {o : Object k} {ns : String} : o.isIn (some ns) = true ↔
    o.key = .ofAddress k (some ns) o.anyName ∧ ¬(ns = "" ∧ o.LacksNamespace) := by
  unfold isIn key ObjectKey.ofAddress LacksNamespace
  cases k.namespaced with
  | false => simp
  | true =>
    cases own : o.metadata.ns with
    | none => simp [eq_comm]
    | some given => simp

namespace Store

variable {s : Store k} {ns name : String} {o : Object k}

theorem Indexed.get_eq_ok_iff (h : s.Indexed) : s.get (some ns) name = .ok o ↔
    o ∈ s.toList ∧ o.key = .ofAddress k (some ns) name := by
  rw [get_eq_ok, h.view_eq_some_iff, toList]
  simp

/-- After any writes, the list of a namespace shows under a name exactly the object that is got with
this namespace and name, unless it is one without a namespace that is got with the empty one. -/
theorem listed_iff_got (writes : List (Write k)) (ns name : String) :
    ∃ page, ((empty k).after writes).list (some ns) .everything = .ok page
      ∧ page.continueToken = none
      ∧ ∀ o, (o ∈ page.items ∧ o.anyName = name) ↔
        ((empty k).after writes).get (some ns) name = .ok o ∧ ¬(ns = "" ∧ o.LacksNamespace) := by
  have indexed := remembers_empty.indexed.after writes
  refine ⟨_, list_unpaged rfl rfl, rfl, fun o => ?_⟩
  rw [items_everything, List.mem_filter, Object.isIn_some_iff, indexed.get_eq_ok_iff]
  constructor
  · rintro ⟨⟨stored, key, placed⟩, rfl⟩
    exact ⟨⟨stored, key⟩, placed⟩
  · rintro ⟨⟨stored, key⟩, placed⟩
    have named : o.anyName = name := congrArg ObjectKey.name key
    exact ⟨⟨stored, named ▸ key, placed⟩, named⟩

/-- An object that is got with the empty namespace, and not listed there. -/
theorem record_without_namespace_unlisted :
    let record : Object .dnsRecord := ⟨{ name := some "a" }, Kind.emptySpec .dnsRecord, none⟩
    let s := (empty .dnsRecord).after [.create .plain record]
    ∃ o page, s.get (some "") "a" = .ok o ∧ s.list (some "") .everything = .ok page
      ∧ o ∉ page.items :=
  ⟨_, _, rfl, rfl, List.not_mem_nil⟩

end Store

end FleetRegistry
