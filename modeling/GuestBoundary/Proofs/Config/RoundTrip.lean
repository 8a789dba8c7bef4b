import GuestBoundary.Config
import GuestBoundary.Proofs.Json.Writing
import Mathlib.Data.List.Nodup
import Mathlib.Logic.Relation

/-!
# Configurations as texts

The members of an object give a configuration if they say of every field what it is there, each at
most once, and leave out only fields that have their defaults (`Fills`).  Their order does not count
for that, and neither do keys that no field has, so such changes to a text change nothing
(`Edit.fills_iff`).  A configuration is written as such an object, so it is read back from its text
and from every text that is made of it by such changes (`configurations_are_read_back`).
-/

namespace GuestBoundary

namespace Config

variable {c c' acc : Config} {key : Key} {value : Json}

/-! ## Fields -/

theorem Key.ofText?_text (key : Key) : Key.ofText? key.text = some key := by
  cases key <;> rfl

theorem Key.text_of_ofText? {name : String} (h : Key.ofText? name = some key) :
    key.text = name := by
  have := List.find?_some h
  exact eq_of_beq this

theorem modeOfJson?_modeText (m : ConversionMode) :
    modeOfJson? (Json.ofText (modeText m)) = some m := by
  rw [Json.ofText, modeOfJson?, Json.textOfUnits?_units]
  cases m <;> rfl

theorem naturalOfJson?_ofNat {bound n : Nat} (hn : n < bound) :
    naturalOfJson? bound (Json.ofNat n) = some n := by
  simp [naturalOfJson?, Json.ofNat, JsonNumber.natural?, hn]

theorem wordOfJson?_ofNat (n : UInt64) : wordOfJson? (Json.ofNat n.toNat) = some n := by
  rw [wordOfJson?, naturalOfJson?_ofNat n.toNat_lt, Option.map_some, UInt64.ofNat_toNat]

/-- What a value makes of a field does not depend on the configuration. -/
theorem map_get_set? (c acc : Config) (key : Key) (value : Json) :
    (c.set? key value).map (fun c => c.get key) = (acc.set? key value).map fun c => c.get key := by
  cases key with
  | checkCallTarget => cases value <;> rfl
  | _ => simp only [set?, Option.map_map]; rfl

/-- The other fields stay as they are. -/
theorem get_of_set? {key' : Key} (h : c.set? key value = some c') (hne : key' ≠ key) :
    c'.get key' = c.get key' := by
  cases key with
  | checkCallTarget =>
    cases value with
    | boolean b =>
      cases h
      cases key' <;> first | rfl | exact absurd rfl hne
    | _ => cases h
  | _ =>
    obtain ⟨v, -, rfl⟩ := Option.map_eq_some_iff.1 h
    cases key' <;> first | rfl | exact absurd rfl hne

/-- Configurations with the same fields are the same. -/
theorem ext_get (h : ∀ key, c.get key = c'.get key) : c = c' := by
  have hmode := congrArg modeOfJson? (h .conversion)
  have hlocals := congrArg wordOfJson? (h .maxLocals)
  have hglobals := congrArg wordOfJson? (h .maxGlobals)
  have hbytes := congrArg wordOfJson? (h .maxBufferBytes)
  have hlevel := congrArg (naturalOfJson? UInt32.size) (h .languageLevel)
  have htarget := Json.boolean.inj (h .checkCallTarget)
  simp only [get, modeOfJson?_modeText, wordOfJson?_ofNat, naturalOfJson?_ofNat (UInt32.toNat_lt _),
    Option.some.injEq, UInt32.toNat_inj] at hmode hlocals hglobals hbytes hlevel
  obtain ⟨⟩ := c
  obtain ⟨⟩ := c'
  congr

/-- The field that a value describes, as it is written. -/
def meaning? (key : Key) (value : Json) : Option Json :=
  (default.set? key value).map fun c => c.get key

/-- A field is what it is written as. -/
theorem meaning?_get (c : Config) (key : Key) : meaning? key (c.get key) = some (c.get key) := by
  rw [meaning?]
  cases key with
  | conversion => rw [get, set?, modeOfJson?_modeText]; rfl
  | maxLocals => rw [get, set?, wordOfJson?_ofNat]; rfl
  | maxGlobals => rw [get, set?, wordOfJson?_ofNat]; rfl
  | maxBufferBytes => rw [get, set?, wordOfJson?_ofNat]; rfl
  | languageLevel =>
    rw [get, set?, naturalOfJson?_ofNat c.languageLevel.toNat_lt, Option.map_some, Option.map_some,
      UInt32.ofNat_toNat]
    rfl
  | checkCallTarget => rfl

/-- A configuration is given a field exactly if it then has what the value describes, and what it
had otherwise. -/
theorem set?_eq_some_iff : acc.set? key value = some c ↔
    meaning? key value = some (c.get key) ∧ ∀ key' ≠ key, c.get key' = acc.get key' := by
  rw [meaning?, map_get_set? default acc]
  constructor
  · intro h
    exact ⟨by rw [h, Option.map_some], fun _ => get_of_set? h⟩
  · rintro ⟨hmeaning, hsame⟩
    obtain ⟨c', hset, hget⟩ := Option.map_eq_some_iff.1 hmeaning
    rw [hset]
    refine congrArg some (ext_get fun key' => ?_)
    by_cases hkey : key' = key
    · rw [hkey, hget]
    · rw [get_of_set? hset hkey, hsame key' hkey]

/-! ## Members -/

/-- A key of an object with its value. -/
abbrev Member := List Text.Unit16 × Json

/-- The field that a member is for. -/
def field? (m : Member) : Option Key := (Json.textOfUnits? m.1).bind Key.ofText?

/-- The fields that members are for. -/
def fields (members : List Member) : List Key := members.filterMap field?

/-- The configuration has what the members say, each of them about another field that was not seen
before, and otherwise what it had. -/
structure Fills (acc : Config) (seen : List Key) (members : List Member) (c : Config) : Prop where
  named : ∀ m ∈ members, ∃ name, m.1 = Text.units name
  distinct : (fields members).Nodup
  fresh : ∀ key ∈ fields members, key ∉ seen
  value : ∀ m ∈ members, ∀ key, field? m = some key → meaning? key m.2 = some (c.get key)
  kept : ∀ key ∉ fields members, c.get key = acc.get key

variable {seen : List Key} {m : Member} {members members' : List Member}

/-- A member without a field counts only as far as its key is a text. -/
theorem fills_cons_none (hm : field? m = none) : Fills acc seen (m :: members) c ↔
    (∃ name, m.1 = Text.units name) ∧ Fills acc seen members c := by
  have hfields : fields (m :: members) = fields members := List.filterMap_cons_none hm
  constructor
  · rintro ⟨named, distinct, fresh, value, kept⟩
    rw [hfields] at distinct fresh kept
    exact ⟨named m List.mem_cons_self, fun m' hm' => named m' (List.mem_cons_of_mem m hm'),
      distinct, fresh, fun m' hm' => value m' (List.mem_cons_of_mem m hm'), kept⟩
  · rintro ⟨hname, named, distinct, fresh, value, kept⟩
    rw [← hfields] at distinct fresh kept
    refine ⟨List.forall_mem_cons.2 ⟨hname, named⟩, distinct, fresh, ?_, kept⟩
    exact List.forall_mem_cons.2 ⟨fun key hkey => (nomatch hm.symm.trans hkey), value⟩

/-- A member with a field is the only one that fills it. -/
theorem Fills.of_cons (h : Fills acc seen (m :: members) c) (hm : field? m = some key) :
    key ∉ seen ∧ ∃ acc', acc.set? key m.2 = some acc' ∧ Fills acc' (key :: seen) members c := by
  have hfields : fields (m :: members) = key :: fields members := List.filterMap_cons_some hm
  obtain ⟨named, distinct, fresh, value, kept⟩ := h
  rw [hfields] at distinct fresh kept
  obtain ⟨hnew, distinct⟩ := List.nodup_cons.1 distinct
  have hvalue := value m List.mem_cons_self key hm
  obtain ⟨acc', hset, hget⟩ : ∃ acc', acc.set? key m.2 = some acc' ∧ acc'.get key = c.get key := by
    rw [meaning?, map_get_set? default acc] at hvalue
    exact Option.map_eq_some_iff.1 hvalue
  refine ⟨fresh key List.mem_cons_self, acc', hset,
    fun m' hm' => named m' (List.mem_cons_of_mem m hm'), distinct, fun key' hkey' => ?_,
    fun m' hm' => value m' (List.mem_cons_of_mem m hm'), fun key' hkey' => ?_⟩
  · refine List.not_mem_cons_of_ne_of_not_mem ?_ (fresh key' (List.mem_cons_of_mem key hkey'))
    rintro rfl
    exact hnew hkey'
  · by_cases hsame : key' = key
    · rw [hsame, hget]
    · rw [get_of_set? hset hsame]
      exact kept key' (List.not_mem_cons_of_ne_of_not_mem hsame hkey')

theorem Fills.cons (h : Fills c' (key :: seen) members c) (hm : field? m = some key)
    (hseen : key ∉ seen) (hset : acc.set? key m.2 = some c') :
    Fills acc seen (m :: members) c := by
  have hfields : fields (m :: members) = key :: fields members := List.filterMap_cons_some hm
  have hnew : key ∉ fields members := fun hkey => h.fresh key hkey List.mem_cons_self
  constructor
  case named =>
    obtain ⟨name, hname, -⟩ := Option.bind_eq_some_iff.1 hm
    exact List.forall_mem_cons.2 ⟨⟨name, (Json.units_of_textOfUnits? hname).symm⟩, h.named⟩
  case distinct =>
    rw [hfields]
    exact List.nodup_cons.2 ⟨hnew, h.distinct⟩
  case fresh =>
    rw [hfields]
    refine List.forall_mem_cons.2 ⟨hseen, fun key' hkey' hmem => ?_⟩
    exact h.fresh key' hkey' (List.mem_cons_of_mem key hmem)
  case value =>
    refine List.forall_mem_cons.2 ⟨fun key' hkey' => ?_, h.value⟩
    obtain rfl := Option.some.inj (hm.symm.trans hkey')
    rw [h.kept key hnew]
    exact (set?_eq_some_iff.1 hset).1
  case kept =>
    rw [hfields]
    intro key' hkey'
    rw [List.mem_cons, not_or] at hkey'
    rw [h.kept key' hkey'.2, get_of_set? hset hkey'.1]

theorem fills_cons_some (hm : field? m = some key) : Fills acc seen (m :: members) c ↔
    key ∉ seen ∧ ∃ acc', acc.set? key m.2 = some acc' ∧ Fills acc' (key :: seen) members c :=
  ⟨fun h => h.of_cons hm, fun ⟨hseen, _, hset, h⟩ => h.cons hm hseen hset⟩

/-- Members are read exactly if they say what the configuration is. -/
theorem setMembers?_eq_some_iff :
    acc.setMembers? seen members = some c ↔ Fills acc seen members c := by
  induction members generalizing acc seen with
  | nil =>
    rw [setMembers?, Option.some.injEq]
    constructor
    · rintro rfl
      exact ⟨nofun, List.nodup_nil, nofun, nofun, fun _ _ => rfl⟩
    · exact fun fills => ext_get fun key => (fills.kept key List.not_mem_nil).symm
  | cons m members ih =>
    obtain ⟨units, value⟩ := m
    rw [setMembers?]
    cases hname : Json.textOfUnits? units with
    | none =>
      refine iff_of_false nofun fun fills => ?_
      obtain ⟨name, rfl⟩ := fills.named _ List.mem_cons_self
      cases hname.symm.trans (Json.textOfUnits?_units name)
    | some name =>
      have hfield : field? (units, value) = Key.ofText? name := by
        rw [field?, hname, Option.bind_some]
      simp only [Option.bind_eq_bind, Option.bind_some]
      cases hkey : Key.ofText? name with
      | none =>
        rw [ih, fills_cons_none (hfield.trans hkey)]
        exact (and_iff_right ⟨name, (Json.units_of_textOfUnits? hname).symm⟩).symm
      | some key =>
        rw [fills_cons_some (hfield.trans hkey)]
        dsimp only
        split
        case isTrue hseen =>
          exact iff_of_false nofun fun h => h.1 (List.contains_iff_mem.1 hseen)
        case isFalse hseen =>
          rw [Option.bind_eq_some_iff, and_iff_right (mt List.contains_iff_mem.2 hseen)]
          exact exists_congr fun acc' => and_congr_right fun _ => ih

/-! ## Changes to members -/

/-- A change to the members of an object that does not count. -/
inductive Edit : List Member → List Member → Prop where
  | reorder {members members' : List Member} (perm : members.Perm members') : Edit members members'
  /-- A key is added that no field has, with any value. -/
  | add {before after : List Member} {name : String} (value : Json)
    (unknown : ∀ key : Key, key.text ≠ name) :
    Edit (before ++ after) (before ++ (Text.units name, value) :: after)
  /-- A field is left out that has its default. -/
  | drop {before after : List Member} (key : Key) :
    Edit (before ++ (Text.units key.text, default.get key) :: after) (before ++ after)

/-- Any number of changes. -/
def Edits : List Member → List Member → Prop := Relation.ReflTransGen Edit

theorem Fills.perm (h : Fills acc seen members c) (perm : members.Perm members') :
    Fills acc seen members' c where
  named m hm := h.named m (perm.mem_iff.2 hm)
  distinct := (perm.filterMap field?).nodup_iff.1 h.distinct
  fresh key hkey := h.fresh key ((perm.filterMap field?).mem_iff.2 hkey)
  value m hm := h.value m (perm.mem_iff.2 hm)
  kept key hkey := h.kept key (mt (perm.filterMap field?).mem_iff.1 hkey)

theorem fills_perm (perm : members.Perm members') :
    Fills acc seen members c ↔ Fills acc seen members' c :=
  ⟨fun h => h.perm perm, fun h => h.perm perm.symm⟩

theorem field?_of_unknown {name : String} (unknown : ∀ key : Key, key.text ≠ name) (value : Json) :
    field? (Text.units name, value) = none := by
  rw [field?, Json.textOfUnits?_units, Option.bind_some]
  exact Option.eq_none_iff_forall_ne_some.2 fun key hkey => unknown key (Key.text_of_ofText? hkey)

theorem field?_text (key : Key) (value : Json) :
    field? (Text.units key.text, value) = some key := by
  rw [field?, Json.textOfUnits?_units, Option.bind_some, Key.ofText?_text]

/-- A field that has its default may be left out. -/
theorem fills_default (hnew : key ∉ fields members) :
    Fills default [] ((Text.units key.text, default.get key) :: members) c ↔
      Fills default [] members c := by
  have hset : default.set? key (default.get key) = some default :=
    set?_eq_some_iff.2 ⟨meaning?_get default key, fun _ _ => rfl⟩
  rw [fills_cons_some (field?_text key _), hset]
  constructor
  · rintro ⟨-, acc', heq, fills⟩
    obtain rfl := Option.some.inj heq
    exact ⟨fills.named, fills.distinct, fun _ _ => List.not_mem_nil, fills.value, fills.kept⟩
  · intro fills
    refine ⟨List.not_mem_nil, default, rfl, fills.named, fills.distinct, fun key' hkey' => ?_,
      fills.value, fills.kept⟩
    rw [List.mem_singleton]
    rintro rfl
    exact hnew hkey'

/-- A change leaves the fields distinct. -/
theorem Edit.distinct (h : Edit members members') (hdistinct : (fields members).Nodup) :
    (fields members').Nodup := by
  cases h with
  | reorder perm => exact (perm.filterMap field?).nodup_iff.1 hdistinct
  | @add before after name value unknown =>
    have hsame : fields (before ++ (Text.units name, value) :: after) =
        fields (before ++ after) := by
      rw [fields, List.filterMap_append, List.filterMap_cons_none (field?_of_unknown unknown value),
        ← List.filterMap_append, fields]
    rwa [hsame]
  | @drop before after key =>
    refine hdistinct.sublist (List.Sublist.filterMap field? ?_)
    exact List.Sublist.append_left (List.sublist_cons_self _ after) before

/-- A change of members whose fields are distinct leaves what they say. -/
theorem Edit.fills_iff (h : Edit members members') (hdistinct : (fields members).Nodup) :
    Fills default [] members' c ↔ Fills default [] members c := by
  cases h with
  | reorder perm => exact (fills_perm perm).symm
  | @add before after name value unknown =>
    rw [fills_perm List.perm_middle, fills_cons_none (field?_of_unknown unknown value)]
    exact and_iff_right ⟨name, rfl⟩
  | @drop before after key =>
    have perm : (before ++ (Text.units key.text, default.get key) :: after).Perm
        ((Text.units key.text, default.get key) :: (before ++ after)) := List.perm_middle
    have hnew : key ∉ fields (before ++ after) := by
      have hfront := (perm.filterMap field?).nodup_iff.1 hdistinct
      rw [List.filterMap_cons_some (field?_text key _)] at hfront
      exact (List.nodup_cons.1 hfront).1
    rw [fills_perm perm, fills_default hnew]

theorem Edits.distinct (h : Edits members members') (hdistinct : (fields members).Nodup) :
    (fields members').Nodup := by
  induction h with
  | refl => exact hdistinct
  | tail _ edit ih => exact edit.distinct ih

/-- Changes of members whose fields are distinct leave what they say. -/
theorem Edits.fills_iff (h : Edits members members') (hdistinct : (fields members).Nodup) :
    Fills default [] members' c ↔ Fills default [] members c := by
  induction h with
  | refl => exact Iff.rfl
  | tail edits edit ih => exact (edit.fills_iff (Edits.distinct edits hdistinct)).trans ih

/-! ## Texts -/

/-- The members of a configuration that is written. -/
def written (c : Config) : List Member := Key.all.map fun key => (Text.units key.text, c.get key)

theorem fields_written (c : Config) : fields c.written = Key.all := by
  have hfield : ∀ keys : List Key,
      fields (keys.map fun key => (Text.units key.text, c.get key)) = keys := by
    intro keys
    induction keys with
    | nil => rfl
    | cons key keys ih =>
      rw [fields, List.map_cons, List.filterMap_cons_some (field?_text key _)]
      exact congrArg (key :: ·) ih
  exact hfield Key.all

theorem distinct_written (c : Config) : (fields c.written).Nodup := by
  rw [fields_written]
  decide

/-- What is written says what the configuration is. -/
theorem fills_written (c : Config) : Fills default [] c.written c where
  named m hm := by
    obtain ⟨key, -, rfl⟩ := List.mem_map.1 hm
    exact ⟨key.text, rfl⟩
  distinct := c.distinct_written
  fresh _ _ := List.not_mem_nil
  value m hm key hkey := by
    obtain ⟨key', -, rfl⟩ := List.mem_map.1 hm
    obtain rfl := Option.some.inj ((field?_text key' _).symm.trans hkey)
    exact meaning?_get c key'
  kept key hkey := by
    rw [fields_written] at hkey
    exact absurd (by cases key <;> decide) hkey

theorem proper_toJson (c : Config) : c.toJson.Proper := by
  have hget : ∀ key, (c.get key).Proper := by
    intro key
    cases key with
    | conversion => exact ⟨_, rfl⟩
    | checkCallTarget => trivial
    | _ => exact ⟨nofun, nofun⟩
  have hmembers : ∀ keys : List Key,
      Json.ProperMembers (keys.map fun key => (Text.units key.text, c.get key)) := by
    intro keys
    induction keys with
    | nil => trivial
    | cons key keys ih => exact ⟨⟨key.text, rfl⟩, hget key, ih⟩
  exact hmembers Key.all

/-- A written configuration is a text of its members. -/
theorem holds_write (c : Config) : Json.Holds c.write (.object c.written) :=
  Json.holds_pretty c.proper_toJson

/-- A text is read by its members. -/
theorem read_of_holds {text : String} (h : Json.Holds text (.object members)) :
    read text = match default.setMembers? [] members with
      | none => .error .malformed
      | some c => c.validate := by
  rw [read, Json.parse?_eq_some_iff.2 h]
  rfl

theorem read_write (c : Config) : read c.write = c.validate := by
  rw [read_of_holds c.holds_write, setMembers?_eq_some_iff.2 c.fills_written]

/-- Changes to a text whose members are about distinct fields change nothing. -/
theorem read_eq_of_edits {text text' : String} (h : Json.Holds text (.object members))
    (h' : Json.Holds text' (.object members')) (hdistinct : (fields members).Nodup)
    (edits : Edits members members') : read text' = read text := by
  have hsame : default.setMembers? [] members' = default.setMembers? [] members := by
    refine Option.ext fun c => ?_
    rw [setMembers?_eq_some_iff, setMembers?_eq_some_iff]
    exact edits.fills_iff hdistinct
  rw [read_of_holds h, read_of_holds h', hsame]

/-- A configuration is read back from its text if its ranges make sense, and otherwise the range is
told that does not.  The same is read from each text that holds its members in any order, with keys
that no field has and without fields that have their defaults; and such changes to any text, whose
members are about distinct fields, do not change what is read. -/
theorem configurations_are_read_back (c : Config) :
    (c.maxGlobals ≠ 0 → c.languageLevel ≠ 0 → read c.write = .ok c) ∧
    (c.maxGlobals = 0 → read c.write = .error (.invalid "max_globals must be positive")) ∧
    (c.maxGlobals ≠ 0 → c.languageLevel = 0 →
      read c.write = .error (.invalid "language_level must be positive")) ∧
    (∀ members text, Edits c.written members → Json.Holds text (.object members) →
      read text = read c.write) ∧
    ∀ members members' text text', (fields members).Nodup → Edits members members' →
      Json.Holds text (.object members) → Json.Holds text' (.object members') →
      read text' = read text := by
  rw [read_write]
  refine ⟨fun hglobals hlevel => ?_, fun hglobals => ?_, fun hglobals hlevel => ?_, ?_, ?_⟩
  · rw [validate, problem?, if_neg hglobals, if_neg hlevel]
  · rw [validate, problem?, if_pos hglobals]
  · rw [validate, problem?, if_neg hglobals, if_pos hlevel]
  · intro members text edits h
    rw [read_eq_of_edits c.holds_write h c.distinct_written edits, read_write]
  · exact fun members members' text text' hdistinct edits h h' =>
      read_eq_of_edits h h' hdistinct edits

/-- The configuration for an older guest. -/
def older : Config := { default with languageLevel := 8 }

/-- A value that is nested. -/
def nested : Json :=
  .object [(Text.units "deep",
    .array [.ofNat 1, .number ⟨true, 2, some ['5'], some ['3']⟩, .null])]

/-- Its members in another order, without most defaults and with a key that no field has. -/
def olderMembers : List Member :=
  [(Text.units "later", nested), (Text.units "language_level", .ofNat 8),
    (Text.units "max_globals", .ofNat 65536)]

theorem edits_older : Edits older.written olderMembers := by
  let level : Member := (Text.units "language_level", .ofNat 8)
  let globals : Member := (Text.units "max_globals", .ofNat 65536)
  refine .head (@Edit.drop [] [_, globals, _, level, _] .conversion) ?_
  refine .head (@Edit.drop [] [globals, _, level, _] .maxLocals) ?_
  refine .head (@Edit.drop [globals] [level, _] .maxBufferBytes) ?_
  refine .head (@Edit.drop [globals, level] [] .checkCallTarget) ?_
  refine .head (@Edit.add [] [globals, level] "later" nested (by rintro ⟨⟩ <;> decide)) ?_
  exact .single (.reorder (.cons _ (.swap level globals [])))

theorem proper_olderMembers : (Json.object olderMembers).Proper := by
  have digits : ∀ c, Json.isDigit c = true → Json.Digits [c] := by
    intro c hc
    refine ⟨nofun, fun d hd => ?_⟩
    rw [List.mem_singleton.1 hd]
    exact hc
  have plain : ∀ n, (Json.ofNat n).Proper := fun n => ⟨nofun, nofun⟩
  have signed : JsonNumber.Proper ⟨true, 2, some ['5'], some ['3']⟩ := by
    refine ⟨fun ds hds => ?_, fun es hes => ?_⟩
    · obtain rfl := Option.some.inj hds
      exact digits '5' rfl
    · obtain rfl := Option.some.inj hes
      exact .unsigned (.inl rfl) (digits '3' rfl)
  exact ⟨⟨_, rfl⟩, ⟨⟨_, rfl⟩, ⟨plain 1, signed, trivial, trivial⟩, trivial⟩, ⟨_, rfl⟩, plain 8,
    ⟨_, rfl⟩, plain 65536, trivial⟩

/-- The configuration is read back, also from the other members, unless a range is empty. -/
theorem older_is_read_back :
    read older.write = .ok older ∧
    read (Json.object olderMembers).pretty = .ok older ∧
    read { older with maxGlobals := 0 }.write =
      .error (.invalid "max_globals must be positive") ∧
    read { older with languageLevel := 0 }.write =
      .error (.invalid "language_level must be positive") := by
  obtain ⟨hok, -, -, hedits, -⟩ := configurations_are_read_back older
  obtain ⟨-, hglobals, -⟩ := configurations_are_read_back { older with maxGlobals := 0 }
  obtain ⟨-, -, hlevel, -⟩ := configurations_are_read_back { older with languageLevel := 0 }
  have hread : read older.write = .ok older := hok (by decide) (by decide)
  refine ⟨hread, ?_, hglobals rfl, hlevel (by decide) rfl⟩
  rw [hedits _ _ edits_older (Json.holds_pretty proper_olderMembers), hread]

example : read "\x7b \"later\" : \x7b\"deep\": [1, -2.5e3, null]\x7d, \"language_level\": 8\x7d" =
    .ok older := by
  decide +kernel

end Config

end GuestBoundary
