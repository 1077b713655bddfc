import FleetRegistry.Proofs.Json.Fields
import FleetRegistry.Proofs.Store.Token
import FleetRegistry.Store.Basic

/-!
Texts in the place of a token. A text that is read as a token is made of the symbols of some bytes,
and these bytes say the one format version, a revision and a place. Every other text is refused as a
bad request, whatever the store holds.
-/
namespace FleetRegistry

theorem Json.text?_eq_some {value : Json} {text : String} :
    value.text? = some text ↔ value = .str text := by
  cases value <;> simp [text?]

namespace ContinueToken

variable {text version : String} {revision start : UInt64} {t : ContinueToken}

def ofWords (revision start : UInt64) : ContinueToken := ⟨revision.toNat, start.toNat⟩

theorem ofWords_inj {revision' start' : UInt64} :
    ofWords revision start = ofWords revision' start' ↔ revision = revision' ∧ start = start' := by
  simp only [ofWords, ContinueToken.mk.injEq, UInt64.toNat_inj]

theorem decode_ofWords (revision start : UInt64) :
    decode (encode (ofWords revision start)) = .ok (ofWords revision start) :=
  decode_encode revision.toNat_lt start.toNat_lt

theorem natBelow?_word {value : Json} {n : Nat} :
    Json.natBelow? numberLimit value = some n
      ↔ ∃ word : UInt64, n = word.toNat ∧ value = .int word.toNat := by
  rw [Json.natBelow?_eq_some]
  constructor
  · rintro ⟨rfl, below⟩
    have back : (UInt64.ofNat n).toNat = n := UInt64.toNat_ofNat_of_lt' below
    exact ⟨.ofNat n, back.symm, by rw [back]⟩
  · rintro ⟨word, rfl, rfl⟩
    exact ⟨rfl, word.toNat_lt⟩

/-! ## What a text says -/

/-- A member as it is written has this name, and this is its value as it is written. -/
def HasName (member : List Char × List Char) (named : String × List Char) : Prop :=
  Json.readPart? member.1 = some (.str named.1) ∧ member.2 = named.2

theorem named?_eq_some {member : List Char × List Char} {named : String × List Char} :
    named? member = some named ↔ HasName member named := by
  obtain ⟨name, part⟩ := named
  simp only [named?, HasName, Option.bind_eq_some_iff, Option.map_eq_some_iff, Json.text?_eq_some,
    Prod.mk.injEq]
  constructor
  · rintro ⟨_, read, _, rfl, rfl, rfl⟩
    exact ⟨read, rfl⟩
  · rintro ⟨read, rfl⟩
    exact ⟨_, read, _, rfl, rfl, rfl⟩

theorem mapM_named?_eq_some {members : List (List Char × List Char)}
    {named : List (String × List Char)} :
    members.mapM named? = some named ↔ List.Forall₂ HasName members named := by
  simp only [Json.mapM_eq_some_iff, named?_eq_some]

def Only (name : String) (part : List Char) (named : List (String × List Char)) : Prop :=
  named.filter (·.1 = name) = [(name, part)]

theorem single?_eq_some {name : String} {named : List (String × List Char)} {value : Json} :
    single? name named = some value
      ↔ ∃ part, Only name part named ∧ Json.readPart? part = some value := by
  unfold single? Only
  split
  next found part eq =>
    have same : found = name := by
      have mem : (found, part) ∈ named.filter (·.1 = name) := eq ▸ List.mem_cons_self
      simpa using (List.mem_filter.1 mem).2
    subst same
    simp [eq]
  next other =>
    refine iff_of_false nofun ?_
    rintro ⟨part, only, -⟩
    exact other name part only

/-- The parts for the version, the revision and the place: each under its name, in an object with
readable names, or the three in this order. -/
inductive Parts : Json.Outline → List Char → List Char → List Char → Prop
  | items (version revision start : List Char) :
    Parts (.items [version, revision, start]) version revision start
  | members {members : List (List Char × List Char)} {named : List (String × List Char)}
    {version revision start : List Char} (names : List.Forall₂ HasName members named)
    (first : Only "v" version named) (second : Only "rv" revision named)
    (third : Only "start" start named) : Parts (.members members) version revision start

theorem parts?_eq_some {outline : Json.Outline} {version revision start : Json} :
    parts? outline = some (version, revision, start)
      ↔ ∃ first second third, Parts outline first second third
        ∧ Json.readPart? first = some version ∧ Json.readPart? second = some revision
        ∧ Json.readPart? third = some start := by
  unfold parts?
  split
  next members =>
    simp only [Option.bind_eq_bind, Option.bind_eq_some_iff, Option.pure_def, Option.some.injEq,
      Prod.mk.injEq, mapM_named?_eq_some, single?_eq_some]
    constructor
    · rintro ⟨_, names, _, ⟨_, one, read⟩, _, ⟨_, two, read'⟩, _, ⟨_, three, read''⟩, rfl, rfl, rfl⟩
      exact ⟨_, _, _, .members names one two three, read, read', read''⟩
    · rintro ⟨_, _, _, ⟨⟩ | ⟨names, one, two, three⟩, read, read', read''⟩
      exact ⟨_, names, _, ⟨_, one, read⟩, _, ⟨_, two, read'⟩, _, ⟨_, three, read''⟩, rfl, rfl, rfl⟩
  next first second third =>
    simp only [Option.bind_eq_bind, Option.bind_eq_some_iff, Option.pure_def, Option.some.injEq,
      Prod.mk.injEq]
    constructor
    · rintro ⟨_, read, _, read', _, read'', rfl, rfl, rfl⟩
      exact ⟨_, _, _, .items _ _ _, read, read', read''⟩
    · rintro ⟨_, _, _, ⟨⟩, read, read', read''⟩
      exact ⟨_, read, _, read', _, read'', rfl, rfl, rfl⟩
  next objects lists =>
    refine iff_of_false nofun ?_
    rintro ⟨_, _, _, ⟨⟩ | _, -⟩
    · exact lists _ _ _ rfl
    · exact objects _ rfl

/-- The text is made of the symbols of bytes that are JSON, in which the version is a text and the
revision and the place are two words. -/
def Says (text version : String) (revision start : UInt64) : Prop :=
  ∃ bytes outline first second third,
    text = String.ofList (Text.Base64.urlSafe.encode bytes)
    ∧ Json.outline? bytes = some outline ∧ Parts outline first second third
    ∧ Json.readPart? first = some (.str version)
    ∧ Json.readPart? second = some (.int revision.toNat)
    ∧ Json.readPart? third = some (.int start.toNat)

theorem ofOutline?_eq_some {outline : Json.Outline} :
    ofOutline? outline = some (version, t)
      ↔ ∃ revision start, t = ofWords revision start
        ∧ parts? outline = some (.str version, .int revision.toNat, .int start.toNat) := by
  simp only [ofOutline?, Option.bind_eq_bind, Option.bind_eq_some_iff, Option.pure_def,
    Option.some.injEq, Prod.mk.injEq, Json.text?_eq_some, natBelow?_word]
  constructor
  · rintro ⟨⟨_, _, _⟩, parts, _, rfl, _, ⟨revision, rfl, rfl⟩, _, ⟨start, rfl, rfl⟩, rfl, rfl⟩
    exact ⟨revision, start, rfl, parts⟩
  · rintro ⟨revision, start, rfl, parts⟩
    exact ⟨_, parts, _, rfl, _, ⟨revision, rfl, rfl⟩, _, ⟨start, rfl, rfl⟩, rfl, rfl⟩

/-- A text is read as a token exactly if it says its words together with the one format version. -/
theorem decode_eq_ok_iff : decode text = .ok t
    ↔ ∃ revision start, t = ofWords revision start ∧ Says text formatVersion revision start := by
  constructor
  · intro accepted
    unfold decode at accepted
    split at accepted
    next => cases accepted
    next bytes symbols =>
      split at accepted
      next => cases accepted
      next version token read =>
        split at accepted
        next same =>
          cases accepted
          subst same
          obtain ⟨outline, json, read⟩ := Option.bind_eq_some_iff.1 read
          obtain ⟨revision, start, rfl, parts⟩ := ofOutline?_eq_some.1 read
          obtain ⟨first, second, third, parts, values⟩ := parts?_eq_some.1 parts
          exact ⟨revision, start, rfl, bytes, outline, first, second, third,
            Text.Base64.decode_eq_ok_iff.1 symbols, json, parts, values⟩
        next => cases accepted
  · rintro ⟨revision, start, rfl, bytes, outline, first, second, third, made, json, parts, values⟩
    have symbols := Text.Base64.decode_eq_ok_iff.2 made
    have parts := parts?_eq_some.2 ⟨first, second, third, parts, values⟩
    have read := ofOutline?_eq_some.2 ⟨revision, start, rfl, parts⟩
    simp only [decode, symbols, json, Option.bind_some, read, if_true]

-- What is passed over need not be text: here it holds one half of a surrogate pair.
example : decode ("eyJ2IjoibWV0YS5rOHMuaW8vdjEiLCJydiI6Niwic3RhcnQiOjIs" ++ "IngiOiJcdWQ4MDAifQ")
    = .ok ⟨6, 2⟩ := by
  decide +kernel

theorem list_of_fault {k : Kind} {fault : TokenFault} (refused : decode text = .error fault)
    (s : Store k) (ns : Option String) (selection : Selection) :
    s.list ns { selection with continueToken := some text }
      = .error (.badRequest (.token fault)) := by
  simp only [Store.list, Store.startPlace, refused]

/-- Every pair of words is read back from the text of its token, and two pairs have two texts, of
the symbols of the alphabet alone. Every text is read as the token of the words that it says,
together with the one format version, or refused as a bad request by the lists of every store. -/
theorem tokens_read_back :
    (∀ revision start : UInt64,
      decode (encode (ofWords revision start)) = .ok (ofWords revision start))
    ∧ (∀ text : String,
      (∃ revision start, decode text = .ok (ofWords revision start)
        ∧ Says text formatVersion revision start)
      ∨ ∃ fault, decode text = .error fault ∧ ∀ k (s : Store k) ns (selection : Selection),
        s.list ns { selection with continueToken := some text }
          = .error (.badRequest (.token fault)))
    ∧ (∀ revision start revision' start' : UInt64,
      encode (ofWords revision start) = encode (ofWords revision' start')
        ↔ revision = revision' ∧ start = start')
    ∧ ∀ t : ContinueToken, (encode t).toList ⊆ Text.Base64.alphabet := by
  refine ⟨decode_ofWords, fun text => ?_, fun revision start revision' start' => ?_, fun t => ?_⟩
  · cases read : decode text with
    | error fault => exact .inr ⟨fault, rfl, fun k s ns => list_of_fault read s ns⟩
    | ok t =>
      obtain ⟨revision, start, rfl, told⟩ := decode_eq_ok_iff.1 read
      exact .inl ⟨revision, start, rfl, told⟩
  · refine ⟨fun same => ?_, fun same => congrArg encode (ofWords_inj.2 same)⟩
    have read := decode_ofWords revision start
    rw [same, decode_ofWords] at read
    exact (ofWords_inj.1 (Except.ok.inj read)).imp Eq.symm Eq.symm
  · rw [encode, String.toList_ofList]
    exact Text.Base64.encode_subset _

end ContinueToken

end FleetRegistry
