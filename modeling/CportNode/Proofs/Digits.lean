import CportNode.Cli.Payload
import CportNode.Proofs.Settings

namespace CportNode

namespace Hex

inductive Writes (c : Char) : Nat → Prop
  | decimal {n : Nat} : n < 10 → c.toNat = '0'.toNat + n → Writes c n
  | lower {n : Nat} : n < 6 → c.toNat = 'a'.toNat + n → Writes c (10 + n)
  | upper {n : Nat} : n < 6 → c.toNat = 'A'.toNat + n → Writes c (10 + n)

/-- A plus sign may take the place of the first digit of a pair. -/
inductive Leads (c : Char) : Nat → Prop
  | digit {n : Nat} : Writes c n → Leads c n
  | plus : c = '+' → Leads c 0

/-- The characters are pairs, one for each byte, which begin as `first` has it and end with a
digit. -/
inductive Spells (first : Char → Nat → Prop) : List Char → Bytes → Prop
  | nil : Spells first [] []
  | cons {a b : Char} {high low : Nat} {cs : List Char} {bytes : Bytes} :
      first a high → Writes b low → Spells first cs bytes →
      Spells first (a :: b :: cs) (UInt8.ofNat (16 * high + low) :: bytes)

theorem Writes.bounds {c : Char} {n : Nat} (h : Writes c n) :
    n < 16 ∧ 48 ≤ c.toNat ∧ c.toNat < 128 := by
  cases h with
  | decimal few place => simp only [Char.reduceToNat] at place; omega
  | lower few place => simp only [Char.reduceToNat] at place; omega
  | upper few place => simp only [Char.reduceToNat] at place; omega

theorem not_writes_plus (n : Nat) : ¬ Writes '+' n := by
  intro h
  exact absurd h.bounds.2.1 (by decide)

theorem Leads.ascii {c : Char} {n : Nat} (h : Leads c n) : c.toNat < 128 := by
  cases h with
  | digit writes => exact writes.bounds.2.2
  | plus same => rw [same]; decide

@[simp] theorem value?_eq_some_iff {c : Char} {n : Nat} : value? c = some n ↔ Writes c n := by
  have between (first last : Char) : first ≤ c ∧ c ≤ last ↔
      first.toNat ≤ c.toNat ∧ c.toNat ≤ last.toNat := Iff.rfl
  simp only [value?, between, Char.reduceToNat]
  constructor
  · intro h
    split at h
    · cases h
      exact .decimal (by omega) (by simp only [Char.reduceToNat]; omega)
    · split at h
      · cases h
        obtain ⟨n, place⟩ := Nat.exists_eq_add_of_le (show 97 ≤ c.toNat by omega)
        rw [show c.toNat - 87 = 10 + n by omega]
        exact .lower (by omega) place
      · split at h
        · cases h
          obtain ⟨n, place⟩ := Nat.exists_eq_add_of_le (show 65 ≤ c.toNat by omega)
          rw [show c.toNat - 55 = 10 + n by omega]
          exact .upper (by omega) place
        · cases h
  · intro h
    cases h with
    | decimal few place =>
      simp only [Char.reduceToNat] at place
      rw [if_pos (by omega), place, Nat.add_sub_cancel_left]
    | lower few place =>
      simp only [Char.reduceToNat] at place
      rw [if_neg (by omega), if_pos (by omega), Option.some.injEq]
      omega
    | upper few place =>
      simp only [Char.reduceToNat] at place
      rw [if_neg (by omega), if_neg (by omega), if_pos (by omega), Option.some.injEq]
      omega

theorem Spells.imp {first first' : Char → Nat → Prop} {cs : List Char} {bytes : Bytes}
    (h : Spells first cs bytes) (sub : ∀ c ∈ cs, ∀ n, first c n → first' c n) :
    Spells first' cs bytes := by
  induction h with
  | nil => exact .nil
  | cons high low _ ih =>
    obtain ⟨here, sub⟩ := List.forall_mem_cons.mp sub
    obtain ⟨-, later⟩ := List.forall_mem_cons.mp sub
    exact .cons (here _ high) low (ih later)

theorem Spells.even {first : Char → Nat → Prop} {cs : List Char} {bytes : Bytes}
    (h : Spells first cs bytes) : cs.length % 2 = 0 := by
  induction h with
  | nil => rfl
  | cons _ _ _ ih => simp only [List.length_cons]; omega

theorem Spells.forall_mem {first : Char → Nat → Prop} {P : Char → Prop} {cs : List Char}
    {bytes : Bytes} (h : Spells first cs bytes) (leading : ∀ c n, first c n → P c)
    (digit : ∀ c n, Writes c n → P c) : ∀ c ∈ cs, P c := by
  induction h with
  | nil => exact fun _ none => absurd none List.not_mem_nil
  | cons high low _ ih =>
    exact List.forall_mem_cons.mpr ⟨leading _ _ high, List.forall_mem_cons.mpr ⟨digit _ _ low, ih⟩⟩

theorem exists_spells : (cs : List Char) → cs.length % 2 = 0 → (∀ c ∈ cs, ∃ n, Writes c n) →
    ∃ bytes, Spells Writes cs bytes
  | [], _, _ => ⟨[], .nil⟩
  | [_], even, _ => by cases even
  | a :: b :: cs, even, digits => by
    obtain ⟨⟨high, first⟩, digits⟩ := List.forall_mem_cons.mp digits
    obtain ⟨⟨low, second⟩, rest⟩ := List.forall_mem_cons.mp digits
    simp only [List.length_cons] at even
    obtain ⟨bytes, spells⟩ := exists_spells cs (by omega) rest
    exact ⟨_, .cons first second spells⟩

theorem exists_spells_iff {cs : List Char} :
    (∃ bytes, Spells Writes cs bytes) ↔ cs.length % 2 = 0 ∧ ∀ c ∈ cs, ∃ n, Writes c n := by
  constructor
  · rintro ⟨bytes, spells⟩
    exact ⟨spells.even, spells.forall_mem (fun _ n h => ⟨n, h⟩) fun _ n h => ⟨n, h⟩⟩
  · rintro ⟨even, digits⟩
    exact exists_spells cs even digits

theorem spells_ofBytes (bytes : Bytes) : Spells Writes (ofBytes bytes).toList bytes := by
  have writes (n : Nat) (few : n < 16) : Writes (digit n) n :=
    value?_eq_some_iff.mp (value?_digit n few)
  rw [ofBytes, String.toList_ofList]
  induction bytes with
  | nil => exact .nil
  | cons b bytes ih =>
    have whole : UInt8.ofNat (16 * (b.toNat / 16) + b.toNat % 16) = b := by
      rw [Nat.div_add_mod, UInt8.ofNat_toNat]
    have small := b.toNat_lt
    have high := writes (b.toNat / 16) (by omega)
    have low := writes (b.toNat % 16) (by omega)
    have spells := Spells.cons high low ih
    rwa [whole] at spells

end Hex

theorem Bytes.ofText_eq_flatMap (text : String) :
    ofText text = text.toList.flatMap String.utf8EncodeChar := by
  rw [ofText, String.toUTF8_eq_toByteArray, byteArray_toList, ← String.utf8Encode_toList,
    List.utf8Encode, List.data_toByteArray]

theorem utf8EncodeChar_of_ascii {c : Char} (ascii : c.toNat < 128) :
    String.utf8EncodeChar c = [UInt8.ofNat c.toNat] :=
  if_pos (Nat.le_of_lt_succ ascii)

theorem le_of_mem_utf8EncodeChar {c : Char} (foreign : ¬ c.toNat < 128) {b : UInt8}
    (member : b ∈ String.utf8EncodeChar c) : 128 ≤ b.toNat := by
  have large : ¬ c.val.toNat ≤ 0x7f := fun small => foreign (Nat.lt_succ_of_le small)
  unfold String.utf8EncodeChar at member
  rw [if_neg large] at member
  split at member
  · simp only [List.mem_cons, List.not_mem_nil, or_false] at member
    rcases member with rfl | rfl <;> simp only [UInt8.toNat_ofNat'] <;> omega
  · split at member
    · simp only [List.mem_cons, List.not_mem_nil, or_false] at member
      rcases member with rfl | rfl | rfl <;> simp only [UInt8.toNat_ofNat'] <;> omega
    · simp only [List.mem_cons, List.not_mem_nil, or_false] at member
      rcases member with rfl | rfl | rfl | rfl <;> simp only [UInt8.toNat_ofNat'] <;> omega

namespace Cli

@[simp] theorem toNat_charOf (b : UInt8) : (charOf b).toNat = b.toNat := by
  have small := b.toNat_lt
  have valid : b.toNat.isValidChar := .inl (by omega)
  rw [charOf, Char.ofNat, dif_pos valid]
  rfl

@[simp] theorem charOf_ofNat {c : Char} (ascii : c.toNat < 128) :
    charOf (UInt8.ofNat c.toNat) = c := by
  have small : c.toNat < UInt8.size := Nat.lt_trans ascii (by decide)
  rw [charOf, UInt8.toNat_ofNat_of_lt' small, Char.ofNat_toNat]

def isGap (c : Char) : Bool :=
  [' ', '\t', '\n', '\x0c', '\r', ':'].contains c

def digitsOf (text : String) : List Char :=
  text.toList.filter fun c => !isGap c

theorem isSeparator_eq_isGap (b : UInt8) : isSeparator b = isGap (charOf b) := by
  have all : ∀ k < 256, isSeparator (UInt8.ofNat k) = isGap (Char.ofNat k) := by
    decide +kernel
  have at_b := all b.toNat b.toNat_lt
  rwa [UInt8.ofNat_toNat] at at_b

theorem ascii_of_isGap {c : Char} (gap : isGap c = true) : c.toNat < 128 := by
  have all : [' ', '\t', '\n', '\x0c', '\r', ':'].all (·.toNat < 128) = true := rfl
  exact of_decide_eq_true (List.all_eq_true.mp all c (List.contains_iff_mem.mp gap))

theorem filter_utf8EncodeChar (c : Char) :
    (String.utf8EncodeChar c).filter (fun b => !isSeparator b) =
      if isGap c then [] else String.utf8EncodeChar c := by
  by_cases ascii : c.toNat < 128
  · have same : isSeparator (UInt8.ofNat c.toNat) = isGap c := by
      rw [isSeparator_eq_isGap, charOf_ofNat ascii]
    rw [utf8EncodeChar_of_ascii ascii, List.filter_cons, same]
    cases isGap c <;> rfl
  · rw [if_neg (ascii ∘ ascii_of_isGap), List.filter_eq_self]
    intro b member
    have large := le_of_mem_utf8EncodeChar ascii member
    rw [isSeparator_eq_isGap, Bool.not_eq_true']
    refine Bool.eq_false_iff.mpr fun gap => ?_
    have small := ascii_of_isGap gap
    rw [toNat_charOf] at small
    omega

theorem filter_ofText (text : String) :
    (Bytes.ofText text).filter (fun b => !isSeparator b) =
      (digitsOf text).flatMap String.utf8EncodeChar := by
  rw [Bytes.ofText_eq_flatMap, List.filter_flatMap, digitsOf]
  simp only [filter_utf8EncodeChar]
  induction text.toList with
  | nil => rfl
  | cons c cs ih =>
    rw [List.flatMap_cons, ih, List.filter_cons]
    cases isGap c <;> rfl

@[simp] theorem digit?_eq_some_iff {c : Char} {n : Nat} :
    Numeral.digit? 16 c = some n ↔ Hex.Writes c n := by
  simpa [Numeral.digit?] using and_iff_left_of_imp fun writes => writes.bounds.1

theorem read?_pair_iff {a b : Char} {n : Nat} :
    Numeral.read? 16 256 [a, b] = some n ↔
      ∃ high low, Hex.Leads a high ∧ Hex.Writes b low ∧ 16 * high + low = n := by
  rw [Numeral.read?_eq_some_iff (by decide)]
  by_cases plus : a = '+'
  · have rest : Numeral.unsigned [a, b] = [b] := by rw [plus]; rfl
    simp only [rest, List.mapM_cons, List.mapM_nil, Option.bind_eq_bind, Option.bind_eq_some_iff,
      Option.pure_def, Option.some.injEq, digit?_eq_some_iff]
    constructor
    · rintro ⟨_, -, ⟨low, second, _, rfl, rfl⟩, rfl, -⟩
      exact ⟨0, low, .plus plus, second, rfl⟩
    · rintro ⟨high, low, first, second, rfl⟩
      cases first with
      | digit writes => exact absurd (plus ▸ writes) (Hex.not_writes_plus _)
      | plus _ =>
        have few := second.bounds.1
        exact ⟨[low], List.cons_ne_nil _ _, ⟨low, second, [], rfl, rfl⟩, rfl, by omega⟩
  · have whole : Numeral.unsigned [a, b] = [a, b] := by
      unfold Numeral.unsigned
      split
      · rename_i same
        exact absurd (List.cons.inj same).1 plus
      · rfl
    simp only [whole, List.mapM_cons, List.mapM_nil, Option.bind_eq_bind, Option.bind_eq_some_iff,
      Option.pure_def, Option.some.injEq, digit?_eq_some_iff]
    constructor
    · rintro ⟨_, -, ⟨high, first, _, ⟨low, second, _, rfl, rfl⟩, rfl⟩, rfl, -⟩
      exact ⟨high, low, .digit first, second, by simp [Numeral.valueFrom]⟩
    · rintro ⟨high, low, first, second, rfl⟩
      cases first with
      | plus same => exact absurd same plus
      | digit first =>
        have few := first.bounds.1
        have few' := second.bounds.1
        exact ⟨[high, low], List.cons_ne_nil _ _,
          ⟨high, first, [low], ⟨low, second, [], rfl, rfl⟩, rfl⟩, by simp [Numeral.valueFrom],
          by omega⟩

theorem pairByte_eq_ok_iff {a b byte : UInt8} :
    pairByte a b = .ok byte ↔
      ∃ high low, Hex.Leads (charOf a) high ∧ Hex.Writes (charOf b) low ∧
        UInt8.ofNat (16 * high + low) = byte := by
  unfold pairByte
  cases read : Numeral.read? 16 256 [charOf a, charOf b] with
  | none =>
    refine iff_of_false (by simp) ?_
    rintro ⟨high, low, first, second, -⟩
    cases read.symm.trans (read?_pair_iff.mpr ⟨high, low, first, second, rfl⟩)
  | some n =>
    simp only [Except.ok.injEq]
    constructor
    · rintro rfl
      obtain ⟨high, low, first, second, rfl⟩ := read?_pair_iff.mp read
      exact ⟨high, low, first, second, rfl⟩
    · rintro ⟨high, low, first, second, rfl⟩
      rw [read?_pair_iff.mpr ⟨high, low, first, second, rfl⟩] at read
      cases read
      rfl

theorem pairByte_error {a b : UInt8} {e : Failure} (h : pairByte a b = .error e) :
    e.code = .usage := by
  unfold pairByte at h
  split at h
  · cases h
  · cases h
    rfl

@[simp] theorem decodePairs_eq_ok_iff {digits bytes : Bytes} :
    decodePairs digits = .ok bytes ↔ Hex.Spells Hex.Leads (digits.map charOf) bytes := by
  induction digits using decodePairs.induct generalizing bytes with
  | case1 =>
    constructor
    · rintro ⟨⟩
      exact .nil
    · rintro ⟨⟩
      rfl
  | case2 a =>
    constructor
    · rintro ⟨⟩
    · rintro ⟨⟩
  | case3 a b rest ih =>
    have opened : decodePairs (a :: b :: rest) = .ok bytes ↔
        ∃ byte, pairByte a b = .ok byte ∧ ∃ later, decodePairs rest = .ok later ∧
          byte :: later = bytes := by
      rw [decodePairs]
      cases pairByte a b with
      | error e => simp [bind, Except.bind]
      | ok byte => cases decodePairs rest <;> simp [bind, Except.bind, pure, Except.pure]
    rw [opened]
    simp only [pairByte_eq_ok_iff, ih]
    constructor
    · rintro ⟨_, ⟨high, low, first, second, rfl⟩, later, spells, rfl⟩
      exact .cons first second spells
    · rintro (_ | ⟨first, second, spells⟩)
      exact ⟨_, ⟨_, _, first, second, rfl⟩, _, spells, rfl⟩

theorem decodePairs_error {digits : Bytes} {e : Failure} (h : decodePairs digits = .error e) :
    e.code = .usage := by
  induction digits using decodePairs.induct generalizing e with
  | case1 => cases h
  | case2 a =>
    cases h
    rfl
  | case3 a b rest ih =>
    rw [decodePairs] at h
    cases first : pairByte a b with
    | error e' =>
      rw [first] at h
      cases h
      exact pairByte_error first
    | ok byte =>
      cases later : decodePairs rest with
      | error e' =>
        rw [first, later] at h
        cases h
        exact ih later
      | ok bytes =>
        rw [first, later] at h
        cases h

theorem map_charOf_flatMap {cs : List Char} (ascii : ∀ c ∈ cs, c.toNat < 128) :
    (cs.flatMap String.utf8EncodeChar).map charOf = cs := by
  induction cs with
  | nil => rfl
  | cons c cs ih =>
    obtain ⟨first, later⟩ := List.forall_mem_cons.mp ascii
    rw [List.flatMap_cons, utf8EncodeChar_of_ascii first, List.singleton_append, List.map_cons,
      charOf_ofNat first, ih later]

theorem spells_flatMap_iff {cs : List Char} {bytes : Bytes} :
    Hex.Spells Hex.Leads ((cs.flatMap String.utf8EncodeChar).map charOf) bytes ↔
      Hex.Spells Hex.Leads cs bytes := by
  have ascii {cs : List Char} (h : Hex.Spells Hex.Leads cs bytes) : ∀ c ∈ cs, c.toNat < 128 :=
    h.forall_mem (fun _ _ leads => leads.ascii) fun _ _ writes => writes.bounds.2.2
  by_cases all : ∀ c ∈ cs, c.toNat < 128
  · rw [map_charOf_flatMap all]
  · refine iff_of_false (fun h => all fun c member => ?_) fun h => all (ascii h)
    by_contra foreign
    obtain ⟨b, among⟩ := List.exists_mem_of_ne_nil _ (String.utf8EncodeChar_ne_nil (c := c))
    have small := ascii h _ (List.mem_map_of_mem (List.mem_flatMap.mpr ⟨c, member, among⟩))
    have large := le_of_mem_utf8EncodeChar foreign among
    rw [toNat_charOf] at small
    omega

@[simp] theorem decodeHex_eq_ok_iff {text : String} {bytes : Bytes} :
    decodeHex text = .ok bytes ↔ Hex.Spells Hex.Leads (digitsOf text) bytes := by
  simp only [decodeHex, filter_ofText]
  split
  · exact decodePairs_eq_ok_iff.trans spells_flatMap_iff
  · rename_i odd
    refine iff_of_false (by simp) fun spells => odd ?_
    have even := (spells_flatMap_iff.mpr spells).even
    rwa [List.length_map] at even

theorem decodeHex_error {text : String} {e : Failure} (h : decodeHex text = .error e) :
    e.code = .usage := by
  simp only [decodeHex] at h
  split at h
  · exact decodePairs_error h
  · cases h
    rfl

/-- A text is read as bytes just if what is left without gaps is pairs of characters, each a digit
or a plus sign and then a digit; every other text is a fault of whoever wrote it.  So it is digits
alone that are read, unless a plus sign is among what is read.  Bytes that were written are read
again, wherever gaps are put in. -/
theorem decodeHex_reads_pairs (text : String) :
    let cs := digitsOf text
    (∀ bytes, decodeHex text = .ok bytes ↔ Hex.Spells Hex.Leads cs bytes) ∧
      ((∀ bytes, ¬ Hex.Spells Hex.Leads cs bytes) →
        ∃ message, decodeHex text = .error ⟨.usage, message⟩) ∧
      ((∀ bytes, decodeHex text = .ok bytes ↔ Hex.Spells Hex.Writes cs bytes) ↔
        ¬ ('+' ∈ cs ∧ ∃ bytes, decodeHex text = .ok bytes)) ∧
      ((∃ bytes, Hex.Spells Hex.Writes cs bytes) ↔
        cs.length % 2 = 0 ∧ ∀ c ∈ cs, ∃ n, Hex.Writes c n) ∧
      ∀ bytes, cs = (Hex.ofBytes bytes).toList → decodeHex text = .ok bytes := by
  intro cs
  have read (bytes : Bytes) : decodeHex text = .ok bytes ↔ Hex.Spells Hex.Leads cs bytes :=
    decodeHex_eq_ok_iff
  have digits {bytes : Bytes} (spells : Hex.Spells Hex.Writes cs bytes) :
      decodeHex text = .ok bytes :=
    (read bytes).mpr (spells.imp fun _ _ _ writes => .digit writes)
  refine ⟨read, fun nothing => ?_, ⟨?_, fun plain bytes => ⟨fun h => ?_, digits⟩⟩,
    Hex.exists_spells_iff, fun bytes same => digits (same ▸ Hex.spells_ofBytes bytes)⟩
  · cases outcome : decodeHex text with
    | ok bytes => exact absurd ((read bytes).mp outcome) (nothing bytes)
    | error e => exact ⟨e.message, by rw [← decodeHex_error outcome]⟩
  · rintro strict ⟨plus, bytes, h⟩
    obtain ⟨-, digits⟩ := Hex.exists_spells_iff.mp ⟨bytes, (strict bytes).mp h⟩
    obtain ⟨n, writes⟩ := digits '+' plus
    exact Hex.not_writes_plus n writes
  · refine ((read bytes).mp h).imp fun c member n leads => ?_
    cases leads with
    | digit writes => exact writes
    | plus same => exact absurd ⟨same ▸ member, bytes, h⟩ plain

theorem plus_is_read :
    decodeHex "+f" = .ok [15] ∧
      (¬ ∀ bytes, decodeHex "+f" = .ok bytes ↔ Hex.Spells Hex.Writes (digitsOf "+f") bytes) ∧
      decodeHex "0a:0b\n" = .ok [10, 11] := by
  have digits : digitsOf "+f" = ['+', 'f'] := by decide
  obtain ⟨read, -, strict, -⟩ := decodeHex_reads_pairs "+f"
  have nothing : decodeHex "+f" = .ok [15] := by
    have plus : Hex.Leads '+' 0 := .plus rfl
    have f : Hex.Writes 'f' (10 + 5) := .lower (by decide) rfl
    rw [read, digits]
    exact .cons plus f .nil
  refine ⟨nothing, fun same => ?_, ?_⟩
  · exact strict.mp same ⟨by decide, [15], nothing⟩
  · exact (decodeHex_reads_pairs "0a:0b\n").2.2.2.2 [10, 11] (by decide)

end Cli

end CportNode
