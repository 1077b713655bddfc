import FleetRegistry.Proofs.Name.Words
import FleetRegistry.Proofs.Object.Violations
import FleetRegistry.Proofs.Registry.Creation

/-!
Names that are made up. A base is tried with one more character and is then cut, wherever that may
be: behind a hyphen, behind a dot, within a label. What is left of it can go on with letters and
digits all the same, so a name that is made from an accepted base is valid.
-/
namespace FleetRegistry

/-! ## Names that are cut and go on -/

namespace Name

variable {s front back : List Char}

def IsEnding (s : List Char) : Prop := s ≠ [] ∧ ∀ c ∈ s, isLowerAlnum c = true

theorem isLabel_of_cut (label : isLabel s = true) (cut : front <+: s) (ending : IsEnding back) :
    isLabel (front ++ back) = true := by
  obtain ⟨nonempty, outer⟩ := ending
  unfold isLabel isWord at label ⊢
  simp only [Bool.and_eq_true, List.all_eq_true] at label ⊢
  obtain ⟨⟨inner, first⟩, -⟩ := label
  refine ⟨⟨fun c mem => ?_, ?_⟩, ?_⟩
  · rcases List.mem_append.1 mem with kept | new
    · exact inner c (cut.mem kept)
    · exact labelChar_of_lowerAlnum (outer c new)
  · cases front with
    | nil =>
      obtain ⟨c, rest, rfl⟩ := List.exists_cons_of_ne_nil nonempty
      exact outer c (List.mem_cons_self ..)
    | cons c front =>
      obtain ⟨rest, rfl⟩ := cut
      exact first
  · rw [List.getLast?_append_of_ne_nil _ nonempty, List.getLast?_eq_some_getLast nonempty]
    exact outer _ (List.getLast_mem nonempty)

theorem isSubdomain_append (label : isLabel front = true) (more : isSubdomain back = true) :
    isSubdomain (front ++ '.' :: back) = true := by
  unfold isSubdomain at more ⊢
  rw [Text.pieces_append (dot_not_mem_of_isLabel label), List.all_cons, label, more, Bool.true_and]

/-- The induction is on the labels behind the first one, up to the label that is cut. -/
theorem isSubdomain_of_labels {first : List Char} {others : List (List Char)}
    (label : isLabel first = true) (labels : ∀ label ∈ others, isLabel label = true)
    (cut : front <+: first ++ others.flatMap ('.' :: ·)) (ending : IsEnding back) :
    isSubdomain (front ++ back) = true := by
  induction others generalizing first front with
  | nil =>
    rw [List.flatMap_nil, List.append_nil] at cut
    exact isSubdomain_of_isLabel (isLabel_of_cut label cut ending)
  | cons next others ih =>
    have ⟨next_label, labels⟩ := List.forall_mem_cons.1 labels
    rcases List.prefix_or_prefix_of_prefix cut (List.prefix_append ..) with within | ⟨rest, rfl⟩
    · exact isSubdomain_of_isLabel (isLabel_of_cut label within ending)
    · rw [List.prefix_append_right_inj, List.flatMap_cons, List.cons_append,
        List.prefix_cons_iff] at cut
      rcases cut with rfl | ⟨rest, rfl, later⟩
      · rw [List.append_nil]
        exact isSubdomain_of_isLabel (isLabel_of_cut label List.prefix_rfl ending)
      · rw [List.append_assoc, List.cons_append]
        exact isSubdomain_append label (ih next_label labels later)

theorem isSubdomain_of_cut (subdomain : isSubdomain s = true) (cut : front <+: s)
    (ending : IsEnding back) : isSubdomain (front ++ back) = true := by
  obtain ⟨first, others, label, labels, rfl⟩ := isSubdomain_iff.1 subdomain
  exact isSubdomain_of_labels label labels cut ending

end Name

/-! ## Generated names -/

namespace Generated

open Name

structure Drawn (suffix : String) : Prop where
  length : suffix.length = suffixLength
  chars : ∀ c ∈ suffix.toList, c ∈ alphabet

variable {base suffix : String}

theorem drawn_suffixOfBytes {bytes : List UInt8} (enough : suffixLength ≤ bytes.length) :
    Drawn (suffixOfBytes bytes) where
  length := by simp [suffixOfBytes, enough]
  chars c mem := by
    simp only [suffixOfBytes, String.toList_ofList, List.mem_map] at mem
    obtain ⟨byte, -, rfl⟩ := mem
    have bound : byte.toNat % alphabet.length < alphabet.length := Nat.mod_lt _ (by decide)
    rw [List.getD_eq_getElem?_getD, List.getElem?_eq_getElem bound, Option.getD_some]
    exact List.getElem_mem bound

def byteFor (c : Char) : UInt8 := UInt8.ofNat (alphabet.idxOf c)

theorem getD_byteFor {c : Char} (mem : c ∈ alphabet) :
    alphabet.getD ((byteFor c).toNat % alphabet.length) 'b' = c := by
  have inside : alphabet.idxOf c < alphabet.length := List.idxOf_lt_length_of_mem mem
  have size : alphabet.length = 27 := by decide
  have small : (byteFor c).toNat = alphabet.idxOf c := by
    rw [byteFor, UInt8.toNat_ofNat']
    omega
  rw [small, Nat.mod_eq_of_lt inside, List.getD_eq_getElem?_getD, List.getElem?_eq_getElem inside,
    Option.getD_some, List.getElem_idxOf]

/-- The random parts of names are those that can be made of bytes. -/
theorem drawn_iff : Drawn suffix
    ↔ ∃ bytes : List UInt8, suffixLength ≤ bytes.length ∧ suffixOfBytes bytes = suffix := by
  constructor
  · rintro ⟨length, chars⟩
    have count : (suffix.toList.map byteFor).length = suffixLength := by
      rw [List.length_map, String.length_toList, length]
    refine ⟨suffix.toList.map byteFor, count.ge, ?_⟩
    have back : ∀ c ∈ suffix.toList,
        ((fun byte : UInt8 => alphabet.getD (byte.toNat % alphabet.length) 'b') ∘ byteFor) c = c :=
      fun c mem => getD_byteFor (chars c mem)
    rw [suffixOfBytes, List.take_of_length_le count.le, List.map_map, List.map_congr_left back,
      List.map_id', String.ofList_toList]
  · rintro ⟨bytes, enough, rfl⟩
    exact drawn_suffixOfBytes enough

theorem Drawn.ending (drawn : Drawn suffix) : IsEnding suffix.toList := by
  have plain : alphabet.all isLowerAlnum = true := by decide
  refine ⟨?_, fun c mem => List.all_eq_true.1 plain c (drawn.chars c mem)⟩
  rw [← List.length_pos_iff, String.length_toList, drawn.length]
  decide

theorem toList_name : (name base suffix).toList = base.toList.take baseLimit ++ suffix.toList := by
  simp [name]

theorem Drawn.name_ne (drawn : Drawn suffix) : name base suffix ≠ "" := by
  intro empty
  have := congrArg String.toList empty
  rw [toList_name] at this
  exact drawn.ending.1 (List.append_eq_nil_iff.1 this).2

theorem take_prefix_probe (base : String) :
    base.toList.take baseLimit <+: (base ++ "x").toList := by
  rw [String.toList_append]
  exact (List.take_prefix ..).trans (List.prefix_append ..)

theorem byteLength_name (drawn : Drawn suffix)
    (subdomain : isSubdomain (name base suffix).toList = true) :
    byteLength (name base suffix).toList ≤ labelLimit := by
  rw [byteLength_of_isSubdomain subdomain, toList_name, List.length_append, String.length_toList,
    drawn.length, List.length_take]
  have : baseLimit + suffixLength = labelLimit := rfl
  omega

theorem labelFaults_name (drawn : Drawn suffix) (accepted : labelFaults (base ++ "x").toList = []) :
    labelFaults (name base suffix).toList = [] := by
  have label : isLabel (name base suffix).toList = true := by
    rw [toList_name]
    exact isLabel_of_cut (labelFaults_eq_nil.1 accepted).2 (take_prefix_probe base) drawn.ending
  exact labelFaults_eq_nil.2 ⟨byteLength_name drawn (isSubdomain_of_isLabel label), label⟩

theorem subdomainFaults_name (drawn : Drawn suffix)
    (accepted : subdomainFaults (base ++ "x").toList = []) :
    subdomainFaults (name base suffix).toList = [] := by
  have subdomain : isSubdomain (name base suffix).toList = true := by
    rw [toList_name]
    exact isSubdomain_of_cut (subdomainFaults_eq_nil.1 accepted).2 (take_prefix_probe base)
      drawn.ending
  have short := byteLength_name drawn subdomain
  have : labelLimit ≤ subdomainLimit := by decide
  exact subdomainFaults_eq_nil.2 ⟨by omega, subdomain⟩

end Generated

theorem ObjectMeta.check_name {check : ObjectMeta.NameCheck}
    (known : check ∈ [Name.labelFaults, Name.subdomainFaults]) {m : ObjectMeta} {path : FieldPath}
    {base suffix : String} (given : m.generateName = some base) (nonempty : base ≠ "")
    (accepted : m.generateNameErrors check path = []) (drawn : Generated.Drawn suffix) :
    check (Generated.name base suffix).toList = [] := by
  have probe : check (base ++ "x").toList = [] := by
    simpa [generateNameErrors, given, nonempty] using accepted
  simp only [List.mem_cons, List.not_mem_nil, or_false] at known
  rcases known with rfl | rfl
  · exact Generated.labelFaults_name drawn probe
  · exact Generated.subdomainFaults_name drawn probe

/-! ## Where the violations of an object are -/

open FieldErrors

namespace ObjectMeta

variable {m : ObjectMeta} {path : FieldPath}

theorem textErrors_inside (check : NameCheck) (text : String) :
    (textErrors check path text).Inside path :=
  inside_map fun _ => rfl

theorem generateNameErrors_inside (check : NameCheck) :
    (m.generateNameErrors check path).Inside (path.child "generateName") := by
  unfold generateNameErrors
  dsimp only
  split
  · exact inside_nil
  · exact inside_map fun _ => rfl

theorem namespaceErrors_inside (namespaced : Bool) :
    (m.namespaceErrors namespaced path).Inside (path.child "namespace") := by
  unfold namespaceErrors
  split
  · exact List.forall_mem_singleton.2 FieldPath.covers_self
  · exact textErrors_inside _ _
  · exact inside_nil
  · exact List.forall_mem_singleton.2 FieldPath.covers_self

theorem generationErrors_inside : (m.generationErrors path).Inside (path.child "generation") := by
  unfold generationErrors
  split
  · exact inside_nil
  · exact inside_given rfl

theorem labelErrors_inside (labels : StringMap) : (labelErrors labels path).Inside path :=
  inside_flatMap fun _ _ => (textErrors_inside _ _).append
    ((textErrors_inside _ _).below (path.key_below _))

theorem annotationErrors_inside (annotations : StringMap) :
    (annotationErrors annotations path).Inside path :=
  (inside_flatMap fun _ _ => inside_map fun _ => rfl).append (inside_given rfl)

theorem finalizerErrors_inside (finalizers : List String) :
    (finalizerErrors finalizers path).Inside path :=
  (inside_elements fun _ => textErrors_inside _ _).append (inside_given rfl)

theorem inside_getD {α : Type} {value : Option α} {errors : α → FieldErrors}
    (inside : ∀ a, (errors a).Inside path) : ((value.map errors).getD []).Inside path := by
  cases value with
  | none => exact inside_nil
  | some a => exact inside a

theorem errors_within_name {check : NameCheck} (namespaced : Bool)
    (valid : m.nameErrors check path = []) :
    (m.errors namespaced check path).within (path.child "name") = [] := by
  have apart {name : String} (step : FieldPath.isStep name = true) (ne : name ≠ "name") :
      (path.child name).Apart (path.child "name") :=
    path.child_apart step (by decide) ne
  unfold errors
  rw [valid, List.nil_append]
  simp only [within_append, List.append_eq_nil_iff]
  refine ⟨⟨⟨⟨⟨?_, ?_⟩, ?_⟩, ?_⟩, ?_⟩, ?_⟩
  · exact (generateNameErrors_inside check).within_apart (apart (by decide) (by decide))
  · exact (namespaceErrors_inside namespaced).within_apart (apart (by decide) (by decide))
  · exact generationErrors_inside.within_apart (apart (by decide) (by decide))
  · exact (inside_getD labelErrors_inside).within_apart (apart (by decide) (by decide))
  · exact (inside_getD annotationErrors_inside).within_apart (apart (by decide) (by decide))
  · exact (inside_getD finalizerErrors_inside).within_apart (apart (by decide) (by decide))

end ObjectMeta

theorem DnsRecordSpec.errors_inside (s : DnsRecordSpec) {path : FieldPath}
    (inner : path.text ≠ "") : (s.errors path).Inside path := by
  have domain := FieldPath.child_below inner "dnsSuffix"
  have lifetime := FieldPath.child_below inner "recordTTL"
  refine .append (.append (inside_child inner "federationName" rfl) ?_) ?_
  · cases s.dnsSuffix with
    | none => exact inside_nil
    | some suffix => exact Inside.below (inside_map fun _ => rfl) domain
  · cases s.recordTtl with
    | none => exact inside_nil
    | some ttl => exact inside_child inner "recordTTL" rfl

variable {k : Kind}

namespace Object

theorem specErrors_inside (spec : k.Spec) : (k.specErrors spec (.ofField "spec")).Inside
    (.ofField "spec") :=
  match k with
  | .cluster => ClusterSpec.errors_inside spec (by decide)
  | .dnsRecord => DnsRecordSpec.errors_inside spec (by decide)

theorem errors_within_name {o : Object k}
    (valid : o.metadata.nameErrors k.nameCheck (.ofField "metadata") = []) :
    o.errors.within ((FieldPath.ofField "metadata").child "name") = [] := by
  have apart : (FieldPath.ofField "spec").Apart ((FieldPath.ofField "metadata").child "name") :=
    (FieldPath.root.child_apart (by decide) (by decide) (by decide)).above
      (FieldPath.child_below (by decide) "name")
  rw [errors, within_append, ObjectMeta.errors_within_name _ valid,
    (specErrors_inside _).within_apart apart]
  rfl

def withName (name : String) (o : Object k) : Object k :=
  o.mapMeta fun m => { m with name := some name }

end Object

/-! ## Creations under a generated name -/

namespace Registry

variable {o : Object k} {base suffix : String} {s : Store k}

theorem newcomer_of_unnamed (unnamed : o.metadata.nameText = "")
    (given : o.metadata.generateName = some base) (nonempty : base ≠ "") (suffix : String) :
    newcomer suffix o = (o.withName (Generated.name base suffix)).started := by
  have named : o.metadata.named suffix
      = (o.withName (Generated.name base suffix)).metadata := by
    simp [ObjectMeta.named, unnamed, given, nonempty, Object.withName, Object.mapMeta]
  simp only [newcomer, Object.mapMeta, named]
  rfl

theorem isNamed_withName {name : String} (nonempty : name ≠ "") : (o.withName name).IsNamed :=
  nonempty

theorem create_unnamed (unnamed : o.metadata.nameText = "")
    (given : o.metadata.generateName = some base) (nonempty : base ≠ "") (ambient : Ambient)
    (dryRun : Bool) (named : (o.withName (Generated.name base ambient.suffix)).IsNamed) :
    create ambient dryRun o s
      = create ambient dryRun (o.withName (Generated.name base ambient.suffix)) s := by
  have same := (newcomer_of_unnamed unnamed given nonempty ambient.suffix).trans
    (newcomer_of_named named ambient.suffix).symm
  simp only [create, planCreate, same]

theorem create_error (h : s.Orderly) (named : o.IsNamed) {ambient : Ambient} {dryRun : Bool}
    {error : RegistryError} (refused : (create ambient dryRun o s).1 = .error error) :
    (o.started.errors ≠ [] ∧ error = invalid k o.metadata.nameText o.started.errors)
    ∨ (o.metadata.versionText ≠ "" ∧ error = .badRequest .versionOnCreate)
    ∨ (∃ x ∈ s.toList, x.SharesPlace o)
      ∧ error = .alreadyExists k.qualified o.metadata.nameText := by
  by_cases valid : o.started.errors = []
  · have planned := planCreate_of_valid named valid ambient.suffix
    cases dryRun with
    | true =>
      rw [create_tried, planned] at refused
      cases refused
    | false =>
      rw [create_of_planned h.indexed named planned] at refused
      split at refused
      next versioned =>
        cases refused
        exact .inr (.inl ⟨versioned, rfl⟩)
      next =>
        split at refused
        next taken =>
          cases refused
          refine .inr (.inr ⟨(exists_taken_iff h named).2 taken, ?_⟩)
          rw [Object.anyName_of_named named]
        next => cases refused
  · rw [create_of_refused (planCreate_of_invalid named valid ambient.suffix)] at refused
    cases refused
    exact .inl ⟨valid, rfl⟩

theorem create_succeeds (h : s.Orderly) (named : o.IsNamed) (valid : o.started.errors = [])
    (unversioned : o.metadata.versionText = "") (free : ¬ ∃ x ∈ s.toList, x.SharesPlace o)
    (ambient : Ambient) (dryRun : Bool) :
    ∃ created, (create ambient dryRun o s).1 = .ok created
      ∧ created.metadata.name = o.metadata.name := by
  have planned := planCreate_of_valid named valid ambient.suffix
  cases dryRun with
  | true => exact ⟨o.started, by rw [create_tried, planned], rfl⟩
  | false =>
    rw [create_of_planned h.indexed named planned, if_neg (not_not_intro unversioned),
      if_neg (mt (exists_taken_iff h named).2 free)]
    exact ⟨_, rfl, rfl⟩

/-- A base that passes the check of its kind, which is tried with one more character, passes it
with any random part behind what is kept of it. So a creation that gives such a base is the creation
of that object under the generated name, at which nothing is wrong: it fails only for something
else that is wrong with the object, or for a version, or because the generated name is in use. -/
theorem generated_names_valid {base suffix : String} (nonempty : base ≠ "")
    (drawn : Generated.Drawn suffix) :
    (∀ check ∈ [Name.labelFaults, Name.subdomainFaults], ∀ (m : ObjectMeta) (path : FieldPath),
      m.generateName = some base → m.generateNameErrors check path = [] →
      check (Generated.name base suffix).toList = [])
    ∧ ∀ (k : Kind) (policy : WritePolicy) (requests : List (Request k)) (ns : Option String)
      (o : Object k) (options : WriteOptions) (ambient : Ambient), ambient.suffix = suffix →
      o.metadata.nameText = "" → o.metadata.generateName = some base →
      o.metadata.generateNameErrors k.nameCheck (.ofField "metadata") = [] →
      let s := after policy (.empty k) requests
      let named := o.withName (Generated.name base suffix)
      let result := perform policy ambient ns (.create o options) s
      result = perform policy ambient ns (.create named options) s
      ∧ named.started.errors.within ((FieldPath.ofField "metadata").child "name") = []
      ∧ (∀ error, result.1 = .error error →
        (named.started.errors ≠ []
          ∧ error = invalid k (Generated.name base suffix) named.started.errors)
        ∨ (o.metadata.versionText ≠ "" ∧ error = .badRequest .versionOnCreate)
        ∨ (∃ x ∈ s.toList, x.SharesPlace named)
          ∧ error = .alreadyExists k.qualified (Generated.name base suffix))
      ∧ (named.started.errors = [] → o.metadata.versionText = "" →
        (¬ ∃ x ∈ s.toList, x.SharesPlace named) →
        ∃ created, result.1 = .ok (.object created)
          ∧ created.metadata.name = some (Generated.name base suffix)) := by
  refine ⟨fun check known m path given accepted =>
    ObjectMeta.check_name known given nonempty accepted drawn, ?_⟩
  rintro k policy requests ns o options ambient rfl unnamed given accepted s named result
  have h : s.Orderly := orderly_after policy requests
  have isNamed : named.IsNamed := isNamed_withName drawn.name_ne
  have whole : result = answering .object (create ambient options.dryRun named s) := by
    rw [← create_unnamed unnamed given nonempty ambient options.dryRun isNamed]
    rfl
  have known : k.nameCheck ∈ [Name.labelFaults, Name.subdomainFaults] := by
    cases k <;> simp [Kind.nameCheck]
  have check := ObjectMeta.check_name known given nonempty accepted drawn
  refine ⟨whole, Object.errors_within_name ?_, fun error failed => ?_,
    fun valid unversioned free => ?_⟩
  · show (if (Generated.name base ambient.suffix).isEmpty then _ else _) = []
    rw [if_neg (by simpa using drawn.name_ne), ObjectMeta.textErrors_eq_nil]
    exact check
  · cases made : (create ambient options.dryRun named s).1 with
    | ok created =>
      rw [whole, answering, made] at failed
      cases failed
    | error error' =>
      rw [whole, answering, made] at failed
      cases failed
      exact create_error h isNamed made
  · obtain ⟨created, answer, name⟩ := create_succeeds h isNamed valid unversioned free ambient
      options.dryRun
    exact ⟨created, by rw [whole, answering, answer]; rfl, name⟩

/-- A base that is cut right behind a dot. -/
theorem generated_names_valid_domain :
    let front := String.ofList (List.replicate 57 'a')
    let o : Object .cluster := ⟨{ generateName := some (front ++ ".b-") }, {}, none⟩
    let s := after {} (.empty .cluster) (clusters ["a"])
    let result := perform {} .plain none (.create o {}) s
    Name.subdomainFaults (front ++ ".xxxxx").toList = []
      ∧ ∃ created, result.1 = .ok (.object created)
        ∧ created.metadata.name = some (front ++ ".xxxxx") := by
  intro front o s result
  have drawn : Generated.Drawn "xxxxx" :=
    Generated.drawn_iff.2 ⟨List.replicate 5 18, by decide, by decide⟩
  have accepted :
      o.metadata.generateNameErrors Kind.cluster.nameCheck (.ofField "metadata") = [] := by
    decide +kernel
  have name : Generated.name (front ++ ".b-") "xxxxx" = front ++ ".xxxxx" := by decide +kernel
  have nonempty : front ++ ".b-" ≠ "" := by decide
  obtain ⟨valid, creation⟩ := generated_names_valid nonempty drawn
  obtain ⟨-, -, -, succeeds⟩ := creation .cluster {} (clusters ["a"]) none o {} .plain rfl rfl rfl
    accepted
  rw [name] at valid succeeds
  exact ⟨valid _ (by simp) o.metadata (.ofField "metadata") rfl accepted,
    succeeds (by decide +kernel) rfl (by decide +kernel)⟩

end Registry

end FleetRegistry
