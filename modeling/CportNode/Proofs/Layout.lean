import CportNode.Proofs.Spelling
import Mathlib.Data.List.Chain

namespace CportNode.Json

namespace Token

inductive Escapes : Char → List Char → Prop
  | plain {c : Char} : 0x20 ≤ c.toNat → c ≠ '"' → c ≠ '\\' → Escapes c [c]
  | short {c e : Char} : shortEscape e = some c → Escapes c ['\\', e]
  | unit {c h₁ h₂ h₃ h₄ : Char} : hex4 h₁ h₂ h₃ h₄ = some c.toNat →
      Escapes c ['\\', 'u', h₁, h₂, h₃, h₄]
  | pair {c h₁ h₂ h₃ h₄ l₁ l₂ l₃ l₄ : Char} {high low : Nat} :
      hex4 h₁ h₂ h₃ h₄ = some high → hex4 l₁ l₂ l₃ l₄ = some low →
      isHighSurrogate high = true → isLowSurrogate low = true →
      joinSurrogates high low = c.toNat →
      Escapes c ['\\', 'u', h₁, h₂, h₃, h₄, '\\', 'u', l₁, l₂, l₃, l₄]

inductive Quotes : List Char → List Char → Prop
  | nil : Quotes [] []
  | cons {c : Char} {body spelling cs : List Char} :
      Escapes c spelling → Quotes body cs → Quotes (c :: body) (spelling ++ cs)

inductive Writes : Token → List Char → Prop
  | openArray : Writes .openArray ['[']
  | closeArray : Writes .closeArray [']']
  | openObject : Writes .openObject ['\x7b']
  | closeObject : Writes .closeObject ['\x7d']
  | comma : Writes .comma [',']
  | colon : Writes .colon [':']
  | null : Writes .null nullText
  | bool (b : Bool) : Writes (.bool b) (boolText b)
  | number {lexeme : List Char} : isNumber lexeme = true →
      (∀ c ∈ lexeme, isNumberChar c = true) → Writes (.number lexeme) lexeme
  | text {s : String} {body : List Char} :
      Quotes s.toList body → Writes (.text s) ('"' :: (body ++ ['"']))

end Token

/-- The characters write the tokens, with any spaces before, between and after them. -/
inductive Lays : List Token → List Char → Prop
  | nil : Lays [] []
  | space {c : Char} {ts : List Token} {cs : List Char} :
      Token.isSpace c = true → Lays ts cs → Lays ts (c :: cs)
  | token {t : Token} {ts : List Token} {spelling cs : List Char} :
      t.Writes spelling → Lays ts cs → Lays (t :: ts) (spelling ++ cs)

def Spells (j : Json) (text : String) : Prop :=
  Lays (tokens j) text.toList

namespace Token

theorem toNat_valid (c : Char) : c.toNat < 0xd800 ∨ (0xdfff < c.toNat ∧ c.toNat < 0x110000) :=
  c.valid

theorem not_surrogate (c : Char) :
    isLowSurrogate c.toNat = false ∧ isHighSurrogate c.toNat = false := by
  have valid := toNat_valid c
  simp only [isLowSurrogate, isHighSurrogate, Bool.and_eq_false_imp, decide_eq_true_eq,
    decide_eq_false_iff_not]
  omega

theorem stringBody_escapes {c : Char} {spelling : List Char} (h : Escapes c spelling)
    (cs : List Char) :
    stringBody (spelling ++ cs) = (stringBody cs).map fun (body, rest) => (c :: body, rest) := by
  cases h with
  | plain visible quote backslash =>
    rw [List.singleton_append, stringBody.eq_def]
    split
    case h_4 heq =>
      cases heq
      rw [if_neg]
      rintro (rfl | control)
      · exact backslash rfl
      · omega
    all_goals
      rename_i heq
      first
        | exact absurd (List.cons.inj heq).1 quote
        | exact absurd (List.cons.inj heq).1 backslash
        | cases heq
  | short escape =>
    unfold shortEscape at escape
    split at escape
    case h_9 => cases escape
    all_goals
      cases escape
      rfl
  | unit code =>
    obtain ⟨low, high⟩ := not_surrogate c
    simp [stringBody, code, low, high]
  | @pair _ _ _ _ _ _ _ _ high low first second isHigh isLow joined =>
    have notLow : isLowSurrogate high = false := by
      simp only [isHighSurrogate, isLowSurrogate, Bool.and_eq_true, Bool.and_eq_false_imp,
        decide_eq_true_eq, decide_eq_false_iff_not] at isHigh ⊢
      omega
    simp [stringBody, first, second, isHigh, isLow, notLow, joined]

theorem stringBody_quotes {body spelling : List Char} (h : Quotes body spelling)
    (rest : List Char) : stringBody (spelling ++ '"' :: rest) = some (body, rest) := by
  induction h with
  | nil => rfl
  | cons escapes _ ih =>
    rw [List.append_assoc, stringBody_escapes escapes, ih]
    rfl

theorem Writes.spelled {t : Token} {cs : List Char} (h : t.Writes cs) : t.Spelled cs := by
  cases h with
  | openArray => exact spelled_openArray
  | closeArray => exact spelled_closeArray
  | openObject => exact spelled_openObject
  | closeObject => exact spelled_closeObject
  | comma => exact spelled_comma
  | colon => exact spelled_colon
  | null => exact spelled_null
  | bool b => exact spelled_bool b
  | number number numeric => exact spelled_number number numeric
  | @text s body quotes =>
    refine ⟨⟨_, _, rfl, rfl⟩, fun rest _ => ?_⟩
    have read : stringBody (body ++ ['"'] ++ rest) = some (s.toList, rest) := by
      rw [List.append_assoc]
      exact stringBody_quotes quotes rest
    rw [List.cons_append, next, read]
    simp

def Numeric : Token → Prop
  | .number _ => True
  | _ => False

theorem Writes.ends {t : Token} {cs : List Char} (h : t.Writes cs) (other : ¬ t.Numeric)
    (rest : List Char) : Ends (cs ++ rest) := by
  cases h with
  | number _ _ => exact absurd trivial other
  | bool b => cases b <;> exact ends_cons rfl _
  | _ => exact ends_cons rfl _

end Token

def Parted (ts : List Token) : Prop :=
  ts.IsChain fun t u => t.Numeric → ¬ u.Numeric

theorem Parted.cons {t : Token} {ts : List Token} (h : Parted ts) (other : ¬ t.Numeric) :
    Parted (t :: ts) :=
  List.IsChain.cons h fun _ _ numeric => absurd numeric other

theorem Parted.append {ts us : List Token} (h : Parted ts) (h' : Parted us)
    (other : ∀ u ∈ us.head?, ¬ u.Numeric) : Parted (ts ++ us) :=
  List.IsChain.append h h' fun _ _ u front _ => other u front

theorem Lays.ends {ts : List Token} {cs : List Char} (h : Lays ts cs)
    (other : ∀ t ∈ ts.head?, ¬ t.Numeric) : Ends cs := by
  cases h with
  | nil => exact fun _ none => by cases none
  | space space _ =>
    refine ends_cons ?_ _
    simp only [Token.isSpace, Bool.or_eq_true, beq_iff_eq] at space
    rcases space with ((rfl | rfl) | rfl) | rfl <;> rfl
  | token writes _ => exact writes.ends (other _ rfl) _

theorem Lays.written {ts : List Token} {cs : List Char} (h : Lays ts cs) (parted : Parted ts) :
    Written cs ts := by
  induction h with
  | nil => exact .nil
  | space space _ ih => exact .space space (ih parted)
  | @token t ts spelling cs writes later ih =>
    have apart : t.Apart cs := by
      cases t with
      | number lexeme => exact later.ends fun u front => List.IsChain.rel_head? parted front trivial
      | _ => trivial
    exact .token writes.spelled apart (ih (List.IsChain.tail parted))

theorem parted_itemTokens {items : List Json} (h : ∀ item ∈ items, Parted (tokens item)) :
    Parted (itemTokens items) := by
  induction items with
  | nil => exact .nil
  | cons item items ih =>
    have later := ih fun i more => h i (List.mem_cons_of_mem item more)
    refine .cons (.append (h item List.mem_cons_self) later fun u front => ?_) (·)
    cases items <;> cases front
    exact (·)

theorem parted_memberTokens {members : List (String × Json)}
    (h : ∀ m ∈ members, Parted (tokens m.2)) : Parted (memberTokens members) := by
  induction members with
  | nil => exact .nil
  | cons m members ih =>
    have later := ih fun i more => h i (List.mem_cons_of_mem m more)
    refine .cons (.cons (.cons (.append (h m List.mem_cons_self) later fun u front => ?_) (·)) (·)) (·)
    cases members <;> cases front
    exact (·)

theorem Sound.parted {j : Json} (h : Sound j) : Parted (tokens j) := by
  induction h with
  | null | bool _ | number _ _ | text _ => exact .singleton _
  | @array items _ ih =>
    cases items with
    | nil => exact .cons (.singleton _) (·)
    | cons item items =>
      have later := parted_itemTokens fun i more => ih i (List.mem_cons_of_mem item more)
      refine .cons (.append (.append (ih item List.mem_cons_self) later fun u front => ?_)
        (.singleton _) fun u front => ?_) (·)
      · cases items <;> cases front
        exact (·)
      · cases front
        exact (·)
  | @object members _ ih =>
    cases members with
    | nil => exact .cons (.singleton _) (·)
    | cons m members =>
      have later := parted_memberTokens fun i more => ih i (List.mem_cons_of_mem m more)
      refine .cons (.cons (.cons (.append (.append (ih m List.mem_cons_self) later
        fun u front => ?_) (.singleton _) fun u front => ?_) (·)) (·)) (·)
      · cases members <;> cases front
        exact (·)
      · cases front
        exact (·)

theorem Lays.writes {ts : List Token} {cs : List Char} (h : Lays ts cs) :
    ∀ t ∈ ts, ∃ spelling, t.Writes spelling := by
  induction h with
  | nil => exact fun _ none => by cases none
  | space _ _ ih => exact ih
  | token writes _ ih =>
    intro t among
    rcases List.mem_cons.mp among with rfl | among
    · exact ⟨_, writes⟩
    · exact ih t among

mutual

theorem sound_of_writes : (j : Json) → (∀ t ∈ tokens j, ∃ cs, t.Writes cs) → Sound j
  | .null, _ => .null
  | .bool b, _ => .bool b
  | .number lexeme, h => by
    obtain ⟨cs, writes⟩ := h (.number lexeme) List.mem_cons_self
    cases writes with
    | number number numeric => exact .number number numeric
  | .text s, _ => .text s
  | .array [], _ => .array fun _ among => by cases among
  | .array (item :: items), h => by
    have first := sound_of_writes item fun t among => h t (by simp [tokens, among])
    have later := sound_of_itemTokens items fun t among => h t (by simp [tokens, among])
    exact .array (List.forall_mem_cons.mpr ⟨first, later⟩)
  | .object [], _ => .object fun _ among => by cases among
  | .object ((key, value) :: members), h => by
    have first := sound_of_writes value fun t among => h t (by simp [tokens, among])
    have later := sound_of_memberTokens members fun t among => h t (by simp [tokens, among])
    exact .object (List.forall_mem_cons.mpr ⟨first, later⟩)
  | .broken, h => by
    obtain ⟨cs, writes⟩ := h .broken List.mem_cons_self
    cases writes

theorem sound_of_itemTokens : (items : List Json) →
    (∀ t ∈ itemTokens items, ∃ cs, t.Writes cs) → ∀ item ∈ items, Sound item
  | [], _ => fun _ among => by cases among
  | item :: items, h => by
    have first := sound_of_writes item fun t among => h t (by simp [itemTokens, among])
    have later := sound_of_itemTokens items fun t among => h t (by simp [itemTokens, among])
    exact List.forall_mem_cons.mpr ⟨first, later⟩

theorem sound_of_memberTokens : (members : List (String × Json)) →
    (∀ t ∈ memberTokens members, ∃ cs, t.Writes cs) → ∀ m ∈ members, Sound m.2
  | [], _ => fun _ among => by cases among
  | (key, value) :: members, h => by
    have first := sound_of_writes value fun t among => h t (by simp [memberTokens, among])
    have later := sound_of_memberTokens members fun t among => h t (by simp [memberTokens, among])
    exact List.forall_mem_cons.mpr ⟨first, later⟩

end

theorem Spells.read {j : Json} {text : String} (h : j.Spells text) : Json.read text = (j, true) := by
  have sound := sound_of_writes j h.writes
  rw [Json.read, Token.scan_of_written (h.written sound.parted), sound.ofTokens]

end CportNode.Json
