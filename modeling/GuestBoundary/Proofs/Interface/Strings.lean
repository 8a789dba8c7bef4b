import GuestBoundary.Proofs.Arrays.Access
import GuestBoundary.Proofs.Guest.Runs
import GuestBoundary.Proofs.Interface.FieldValues
import GuestBoundary.Proofs.Text.Lenient

/-!
# The text of a string

Native code gets at the text of a string as code units or as bytes, all of it in a block or a region
of it in memory of its own.  `ShowsText` says what each of these ways shows; it is the same text
(`shows_text`).  The bytes in a block end at the first zero: there is none in front of the one that
stands behind the text, since the encoding has no zeros, so a string that is made of the bytes is
the same text again.
-/

namespace GuestBoundary

variable {H : Type}

/-! ## Units in memory -/

namespace Interface

/-- Units are read back as they were put into memory. -/
theorem unitsOfBytes_bytesOfUnits (us : List Text.Unit16) :
    unitsOfBytes (bytesOfUnits us) = us := by
  induction us with
  | nil => rfl
  | cons u us ih =>
    have hunit : UInt16.ofNat (natOfBytes (bytesOfNat 2 u.toNat)) = u := by
      have hlt := u.toNat_lt
      have hnat : natOfBytes (bytesOfNat 2 u.toNat) = u.toNat := by
        simp only [bytesOfNat, natOfBytes, UInt8.toNat_ofNat']
        omega
      rw [hnat, UInt16.ofNat_toNat]
    show UInt16.ofNat (natOfBytes (bytesOfNat 2 u.toNat)) :: unitsOfBytes (bytesOfUnits us) = _
    rw [hunit, ih]

theorem length_bytesOfUnits (us : List Text.Unit16) : (bytesOfUnits us).length = 2 * us.length := by
  rw [bytesOfUnits, List.length_flatMap]
  simp [Nat.mul_comm]

/-- The bytes spell the units, two bytes each. -/
def SpellUnits (bytes : List UInt8) (us : List Text.Unit16) : Prop :=
  bytes.length = 2 * us.length ∧ unitsOfBytes bytes = us

theorem spellUnits_bytesOfUnits (us : List Text.Unit16) : SpellUnits (bytesOfUnits us) us :=
  ⟨length_bytesOfUnits us, unitsOfBytes_bytesOfUnits us⟩

/-- A text ends where its encoding does. -/
theorem textBytes_encode_append (us : List Text.Unit16) (rest : List UInt8) :
    textBytes (Text.Modified.encode us ++ 0 :: rest) = Text.Modified.encode us := by
  have hnonzero : ∀ b ∈ Text.Modified.encode us, (b != 0) = true := fun b hb =>
    bne_iff_ne.2 fun hzero => Text.Modified.zero_notMem_encode us (hzero ▸ hb)
  rw [textBytes, List.takeWhile_append_of_pos hnonzero, List.takeWhile_cons_of_neg (by decide),
    List.append_nil]

end Interface

/-! ## Room -/

namespace World

/-- The bytes of the block at an address. -/
def blockAt (w : World H) (a : Address) : Option (List UInt8) :=
  w.bridge.bind fun b => (b.buffers.contents a).toOption

/-- A block of `n` bytes is within the budget, and the host grants one that is not out.  No host
grants a block whose length is no signed word. -/
structure HasBlock (w : World H) (n : Nat) : Prop where
  signed : n < 2 ^ 63
  affords : ∃ b a, w.bridge = some b ∧ b.buffers.Affords n ∧ w.grant n = some a ∧
    a ∉ b.buffers.addresses

end World

namespace Interface

open Entry Text.Modified

/-! ## What is shown -/

/-- What the functions show of a string with the given units. -/
structure ShowsText (call : Invoker H) (w : World H) (h : Handle) (us : List Text.Unit16) :
    Prop where
  /-- A block has the bytes of the text and a zero.  Up to the first zero there are as many bytes as
  the text is said to have, and a string that is made of them has the same units. -/
  utf : ∀ flag, w.HasBlock ((encode us).length + 1) → ∃ n block bytes w',
    ask call .getStringUtfLengthAsLong [.handle h] w = .ok (.plain (.primitive (.long n))) w ∧
    ask call .getStringUtfChars [.handle h, .copyFlag flag] w = .ok ⟨.buffer block, flag, []⟩ w' ∧
    w'.blockAt block = some bytes ∧ bytes = encode us ++ [0] ∧
    n.toInt = (textBytes bytes).length ∧
    (w.HasVacancy → ∃ g o w'',
      ask call .newStringUtf [.text (some (textBytes bytes))] w' =
        .ok (.plain (.handle g)) w'' ∧
      w''.resolve g = some o ∧ (w''.object o).units? = some us)
  /-- A block of units has exactly those of the string. -/
  chars : ∀ f ∈ [Function.getStringChars, .getStringCritical], ∀ flag,
    w.HasBlock (2 * us.length) → ∃ block bytes w',
      ask call f [.handle h, .copyFlag flag] w = .ok ⟨.buffer block, flag, []⟩ w' ∧
      w'.blockAt block = some bytes ∧ SpellUnits bytes us
  /-- A region within the string is written, and nothing else happens. -/
  region : ∀ start count, InBounds start count us.length → ∃ written,
    ask call .getStringRegion
        [.handle h, .primitive (.int start), .primitive (.int count), .target true] w =
      .ok ⟨.nothing, false, written⟩ w ∧
    SpellUnits written ((us.drop start.toInt.toNat).take count.toInt.toNat)
  utfRegion : ∀ start count, InBounds start count us.length →
    ask call .getStringUtfRegion
        [.handle h, .primitive (.int start), .primitive (.int count), .target true] w =
      .ok ⟨.nothing, false,
        encode ((us.drop start.toInt.toNat).take count.toInt.toNat) ++ [0]⟩ w
  /-- Any other region is refused, and nothing is written. -/
  outside : ∀ f ∈ [Function.getStringRegion, .getStringUtfRegion], ∀ start count,
    ¬ InBounds start count us.length → ∀ present, ∃ t w',
      ask call f [.handle h, .primitive (.int start), .primitive (.int count), .target present] w =
        .ok ⟨.nothing, false, []⟩ w' ∧
      w'.pending = some t ∧ w.heap.size ≤ t.index ∧
      w'.className t = "java/lang/StringIndexOutOfBoundsException" ∧ w.Untouched w'

section Text

variable {w : World H} {h : Handle} {o : ObjectRef} {us : List Text.Unit16}
  {f : Function} {start count : Int32} {present flag : Bool}

theorem unitsOf_ok (hh : w.resolve h = some o) (ho : (w.object o).units? = some us) :
    unitsOf h w = .ok us w := by
  rw [unitsOf, Action.bind_ok (require_some hh), Action.bind_ok world_eq, ho]
  rfl

/-- Where there is room, bytes are put into a block. -/
theorem bufferOf_of_hasBlock {bytes : List UInt8} (hroom : w.HasBlock bytes.length) :
    ∃ b a, bufferOf bytes w = .ok a (w.withBlock b a bytes) ∧
      (w.withBlock b a bytes).blockAt a = some bytes := by
  obtain ⟨-, b, a, hb, hbudget, hgrant, hfresh⟩ := hroom
  refine ⟨b, a, bufferOf_ok hb hbudget hgrant hfresh, ?_⟩
  show ((b.buffers.enter a ⟨bytes.length, bytes⟩).contents a).toOption = _
  rw [Buffers.contents, Buffers.find?_enter, if_pos rfl]
  exact congrArg some (Block.contents_of_length rfl)

/-! ## Blocks -/

theorem getStringUtfLengthAsLong_ok (hh : w.resolve h = some o)
    (ho : (w.object o).units? = some us) :
    getStringUtfLengthAsLong h w = .ok (Int64.ofNat (encode us).length) w := by
  rw [getStringUtfLengthAsLong, Action.bind_ok (unitsOf_ok hh ho), length_encode]
  rfl

theorem getStringUtfChars_ok (hh : w.resolve h = some o) (ho : (w.object o).units? = some us) :
    getStringUtfChars h w = bufferOf (encode us ++ [0]) w :=
  Action.bind_ok (unitsOf_ok hh ho)

theorem getStringChars_ok (hh : w.resolve h = some o) (ho : (w.object o).units? = some us) :
    getStringChars h w = bufferOf (bytesOfUnits us) w :=
  Action.bind_ok (unitsOf_ok hh ho)

/-- Bytes become a string of the units that they spell. -/
theorem newStringUtf_ok (hroom : w.HasVacancy) (bytes : List UInt8) :
    ∃ g o w', newStringUtf (some bytes) w = .ok g w' ∧ w'.resolve g = some o ∧
      (w'.object o).units? = some (decodeLossy bytes) := by
  obtain ⟨a, ha, wf, hvacancy⟩ := hroom
  let made := (w.newString (decodeLossy bytes)).2
  have hmade : made.attachment = some a := ha
  obtain ⟨g, t, hlocal, -, ho⟩ := newLocal_fills hmade wf hvacancy ⟨w.heap.size⟩
  have hstring : (Guest.newString (decodeLossy bytes) w : Outcome H EntryError ObjectRef) =
      .ok ⟨w.heap.size⟩ made := rfl
  refine ⟨g, ⟨w.heap.size⟩, _, (Action.bind_ok hstring).trans hlocal, ho, ?_⟩
  exact congrArg Object.units? (Heap.get_push_self w.heap _)

/-! ## Regions -/

theorem getStringRegion_in (hh : w.resolve h = some o) (ho : (w.object o).units? = some us)
    (hin : InBounds start count us.length) :
    getStringRegion h start count true w =
      .ok (bytesOfUnits ((us.drop start.toInt.toNat).take count.toInt.toNat)) w := by
  have hregion := region_in (w := w) hin .stringIndexOutOfBounds
  rw [getStringRegion, Action.bind_ok (unitsOf_ok hh ho)]
  refine (Action.bind_ok hregion).trans ?_
  dsimp only
  split
  next hzero =>
    rw [hzero, List.take_zero]
    rfl
  next => rfl

theorem getStringUtfRegion_in (hh : w.resolve h = some o) (ho : (w.object o).units? = some us)
    (hin : InBounds start count us.length) :
    getStringUtfRegion h start count true w =
      .ok (encode ((us.drop start.toInt.toNat).take count.toInt.toNat) ++ [0]) w := by
  have hregion := region_in (w := w) hin .stringIndexOutOfBounds
  rw [getStringUtfRegion, Action.bind_ok (unitsOf_ok hh ho)]
  exact Action.bind_ok hregion

/-- Both functions look at the region before they look at the memory. -/
theorem perform_outside (call : Invoker H) (hh : w.resolve h = some o)
    (ho : (w.object o).units? = some us) (hout : ¬ InBounds start count us.length)
    (hf : f ∈ [Function.getStringRegion, .getStringUtfRegion]) (present : Bool) :
    ∃ message, perform call f
        [.handle h, .primitive (.int start), .primitive (.int count), .target present] w =
      .error (.fault ⟨.stringIndexOutOfBounds, message⟩) w := by
  have hunits := unitsOf_ok hh ho
  obtain ⟨message, hregion⟩ := region_out (w := w) hout .stringIndexOutOfBounds
  simp only [List.mem_cons, List.not_mem_nil, or_false] at hf
  refine ⟨message, ?_⟩
  rcases hf with rfl | rfl
  · exact Action.bind_error ((Action.bind_ok hunits).trans (Action.bind_error hregion))
  · exact Action.bind_error ((Action.bind_ok hunits).trans (Action.bind_error hregion))

/-- Every way to get at the text of a string shows the same text, as long as there is room. -/
theorem shows_text (call : Invoker H) (reachable : w.registry.Reachable)
    (attached : w.attachment.isSome = true) (hh : w.resolve h = some o)
    (ho : (w.object o).units? = some us) : ShowsText call w h us := by
  constructor
  case utf =>
    intro flag hroom
    have hsigned : (encode us).length + 1 < 2 ^ 63 := hroom.signed
    have hlength : (encode us ++ [0]).length = (encode us).length + 1 := List.length_append
    rw [← hlength] at hroom
    obtain ⟨b, a, hbuffer, hblock⟩ := bufferOf_of_hasBlock hroom
    have hlong : (Int64.ofNat (encode us).length).toInt = (encode us).length :=
      Int64.toInt_ofNat_of_lt (by omega)
    have htext : textBytes (encode us ++ [0]) = encode us :=
      textBytes_encode_append us []
    refine ⟨_, a, encode us ++ [0], _,
      callFunction_done attached (Action.bind_ok (getStringUtfLengthAsLong_ok hh ho)),
      callFunction_done attached (Action.bind_ok ((getStringUtfChars_ok hh ho).trans hbuffer)),
      hblock, rfl, ?_, fun hvacancy => ?_⟩
    · rw [htext, hlong]
    · rw [htext]
      obtain ⟨g, o', w'', hstring, hg, ho'⟩ :=
        newStringUtf_ok (w := w.withBlock b a (encode us ++ [0])) hvacancy (encode us)
      rw [decodeLossy_encode] at ho'
      exact ⟨g, o', w'', callFunction_done attached (Action.bind_ok hstring), hg, ho'⟩
  case chars =>
    intro f hf flag hroom
    rw [← length_bytesOfUnits] at hroom
    obtain ⟨b, a, hbuffer, hblock⟩ := bufferOf_of_hasBlock hroom
    have hchars := (getStringChars_ok hh ho).trans hbuffer
    simp only [List.mem_cons, List.not_mem_nil, or_false] at hf
    refine ⟨a, bytesOfUnits us, _, ?_, hblock, spellUnits_bytesOfUnits us⟩
    rcases hf with rfl | rfl
    · exact callFunction_done attached (Action.bind_ok hchars)
    · exact callFunction_done attached (Action.bind_ok hchars)
  case region =>
    intro start count hin
    exact ⟨_, callFunction_done attached (Action.bind_ok (getStringRegion_in hh ho hin)),
      spellUnits_bytesOfUnits _⟩
  case utfRegion =>
    intro start count hin
    exact callFunction_done attached (Action.bind_ok (getStringUtfRegion_in hh ho hin))
  case outside =>
    intro f hf start count hout present
    have hfailure : f.failure = .nothing := by
      simp only [List.mem_cons, List.not_mem_nil, or_false] at hf
      rcases hf with rfl | rfl <;> rfl
    obtain ⟨c, hfind, -⟩ := reachable.messageSlot .stringIndexOutOfBounds
    obtain ⟨message, hbody⟩ := perform_outside call hh ho hout hf present
    let fault : GuestFault := ⟨.stringIndexOutOfBounds, message⟩
    refine ⟨⟨w.heap.size⟩, w.raised fault, ?_, World.pending_raised attached fault, Nat.le_refl _,
      World.className_materialize (f := fault) hfind, World.untouched_raised w fault⟩
    have hcall := callFunction_fails (ε := Empty) attached rfl hbody
    rw [hfailure] at hcall
    exact hcall

end Text

/-- A letter, half of a surrogate pair and a zero. -/
def noteUnits : List Text.Unit16 := [0x41, 0xD83D, 0]

/-- A reference to the first object. -/
def noteLocals : Locals ObjectRef := (Locals.empty 4096).after [.create (some ⟨0⟩)]

def note : Handle := noteLocals.handleAt 0

/-- An attached thread with a reference to a string. -/
def noteReader : World Unit :=
  { ((World.start World.defaultCallDepth .growing ()).newString noteUnits).2.setAttachment
      (some ⟨0, noteLocals, .empty⟩) with
    linked := true, bridge := some (.empty .default), bridgeHeld := true, attachments := 1 }

theorem noteReader_reachable : noteReader.registry.Reachable := by
  have hregistry : noteReader.registry = Registry.basic := by
    rw [← Registry.registry_start World.defaultCallDepth .growing ()]
    rfl
  rw [hregistry]
  exact .basic

/-- The zero in the string is two bytes of its text, so the text has six, and they give the string
back; the last two units are a region, and the last three are not. -/
theorem note_shows_text :
    let call : Invoker Unit := fun _ _ _ => Action.halt .outOfFuel
    ∃ n block bytes w g o w' written t w'',
      ask call .getStringUtfLengthAsLong [.handle note] noteReader =
        .ok (.plain (.primitive (.long n))) noteReader ∧ n.toInt = 6 ∧
      ask call .getStringUtfChars [.handle note, .copyFlag true] noteReader =
        .ok ⟨.buffer block, true, []⟩ w ∧ w.blockAt block = some bytes ∧
      ask call .newStringUtf [.text (some (textBytes bytes))] w =
        .ok (.plain (.handle g)) w' ∧ w'.resolve g = some o ∧
      (w'.object o).units? = some noteUnits ∧
      ask call .getStringRegion
        [.handle note, .primitive (.int 1), .primitive (.int 2), .target true] noteReader =
        .ok ⟨.nothing, false, written⟩ noteReader ∧ SpellUnits written [0xD83D, 0] ∧
      ask call .getStringRegion
        [.handle note, .primitive (.int 1), .primitive (.int 3), .target true] noteReader =
        .ok ⟨.nothing, false, []⟩ w'' ∧
      w''.className t = "java/lang/StringIndexOutOfBoundsException" := by
  intro call
  have hgrant : noteReader.grant ((encode noteUnits).length + 1) = some 0x7f0000000000 := by
    decide +kernel
  have hroom : noteReader.HasBlock ((encode noteUnits).length + 1) :=
    ⟨by decide, .empty .default, _, rfl, by decide, hgrant, List.not_mem_nil⟩
  have hvacancy : noteReader.HasVacancy := ⟨_, rfl, (Locals.wellFormed_empty 4096).after _, rfl⟩
  have hstring : (noteReader.object ⟨0⟩).units? = some noteUnits := by decide +kernel
  obtain ⟨utf, -, region, -, outside⟩ :=
    shows_text call noteReader_reachable rfl (show noteReader.resolve note = some ⟨0⟩ from rfl)
      hstring
  obtain ⟨n, block, bytes, w, hlong, hchars, hblock, hbytes, hn, hagain⟩ := utf true hroom
  obtain ⟨g, o, w', hnew, hg, ho⟩ := hagain hvacancy
  obtain ⟨written, hregion, hwritten⟩ := region 1 2 (by decide)
  obtain ⟨t, w'', hout, -, -, hclass, -⟩ :=
    outside .getStringRegion List.mem_cons_self 1 3 (by decide) true
  have hlength : n.toInt = 6 := by
    rw [hn, hbytes]
    decide
  exact ⟨n, block, bytes, w, g, o, w', written, t, w'', hlong, hlength, hchars, hblock, hnew, hg,
    ho, hregion, hwritten, hout, hclass⟩

end Interface

end GuestBoundary
