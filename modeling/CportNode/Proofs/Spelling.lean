import CportNode.Json.Draft
import CportNode.Json.Printer

/-!
JSON that is written by the rules is read as the tree it was written for.  A tree is made of tokens,
and a text of the spellings of tokens with spaces between them; reading goes back from the one to
the other in two steps, neither of which knows of the other.
-/

namespace CportNode.Json

mutual

def tokens : Json → List Token
  | .null => [.null]
  | .bool b => [.bool b]
  | .number lexeme => [.number lexeme]
  | .text s => [.text s]
  | .array [] => [.openArray, .closeArray]
  | .array (item :: items) => .openArray :: (tokens item ++ itemTokens items ++ [.closeArray])
  | .object [] => [.openObject, .closeObject]
  | .object ((key, value) :: members) =>
    .openObject :: .text key :: .colon :: (tokens value ++ memberTokens members ++ [.closeObject])
  | .broken => [.broken]

def itemTokens : List Json → List Token
  | [] => []
  | item :: items => .comma :: (tokens item ++ itemTokens items)

def memberTokens : List (String × Json) → List Token
  | [] => []
  | (key, value) :: members =>
    .comma :: .text key :: .colon :: (tokens value ++ memberTokens members)

end

inductive Sound : Json → Prop
  | null : Sound .null
  | bool (b : Bool) : Sound (.bool b)
  | number {lexeme : List Char} : Token.isNumber lexeme = true →
      (∀ c ∈ lexeme, Token.isNumberChar c = true) → Sound (.number lexeme)
  | text (s : String) : Sound (.text s)
  | array {items : List Json} : (∀ item ∈ items, Sound item) → Sound (.array items)
  | object {members : List (String × Json)} : (∀ m ∈ members, Sound m.2) → Sound (.object members)

namespace Draft

def Completes (place : Place) (j : Json) : Prop :=
  ∀ stack, (tokens j).foldl take (.growing place stack) = complete j stack

theorem take_itemTokens {items : List Json} (h : ∀ item ∈ items, Completes .value item)
    (read : List Json) (stack : List Frame) :
    (itemTokens items).foldl take (.growing .more (.array read :: stack)) =
      .growing .more (.array (items.reverse ++ read) :: stack) := by
  induction items generalizing read with
  | nil => rfl
  | cons item items ih =>
    have first : (tokens item).foldl take (.growing .value (.array read :: stack)) =
        .growing .more (.array (item :: read) :: stack) := h item List.mem_cons_self _
    calc (itemTokens (item :: items)).foldl take (.growing .more (.array read :: stack))
        = (itemTokens items).foldl take
            ((tokens item).foldl take (.growing .value (.array read :: stack))) := by
          rw [itemTokens, List.foldl_cons, List.foldl_append]
          rfl
      _ = .growing .more (.array (items.reverse ++ item :: read) :: stack) := by
          rw [first, ih fun i later => h i (List.mem_cons_of_mem item later)]
      _ = .growing .more (.array ((item :: items).reverse ++ read) :: stack) := by
          rw [List.reverse_cons, List.append_assoc, List.singleton_append]

theorem take_memberTokens {members : List (String × Json)}
    (h : ∀ m ∈ members, Completes .value m.2) (read : List (String × Json)) (key : String)
    (stack : List Frame) :
    ∃ last, (memberTokens members).foldl take (.growing .more (.object read key :: stack)) =
      .growing .more (.object (members.reverse ++ read) last :: stack) := by
  induction members generalizing read key with
  | nil => exact ⟨key, rfl⟩
  | cons m members ih =>
    obtain ⟨name, value⟩ := m
    have first : (tokens value).foldl take (.growing .value (.object read name :: stack)) =
        .growing .more (.object ((name, value) :: read) "" :: stack) :=
      h (name, value) List.mem_cons_self _
    obtain ⟨last, rest⟩ := ih (fun m later => h m (List.mem_cons_of_mem _ later))
      ((name, value) :: read) ""
    refine ⟨last, ?_⟩
    calc (memberTokens ((name, value) :: members)).foldl take
          (.growing .more (.object read key :: stack))
        = (memberTokens members).foldl take
            ((tokens value).foldl take (.growing .value (.object read name :: stack))) := by
          rw [memberTokens, List.foldl_cons, List.foldl_cons, List.foldl_cons, List.foldl_append]
          rfl
      _ = .growing .more (.object (members.reverse ++ (name, value) :: read) last :: stack) := by
          rw [first, rest]
      _ = .growing .more (.object (((name, value) :: members).reverse ++ read) last :: stack) := by
          rw [List.reverse_cons, List.append_assoc, List.singleton_append]

end Draft

open Draft in
theorem Sound.completes {j : Json} (h : Sound j) :
    Completes .value j ∧ Completes .item j := by
  have of_values {j : Json} {t : Token} {ts : List Token} (spelt : tokens j = t :: ts)
      (begins : t ≠ .closeArray) (h : Completes .value j) :
      Completes .value j ∧ Completes .item j := by
    refine ⟨h, fun stack => ?_⟩
    have same : take (.growing .item stack) t = take (.growing .value stack) t := by
      cases t with
      | closeArray => exact absurd rfl begins
      | _ => rfl
    rw [← h stack, spelt, List.foldl_cons, List.foldl_cons, same]
  induction h with
  | null => exact ⟨fun _ => rfl, fun _ => rfl⟩
  | bool b => exact ⟨fun _ => rfl, fun _ => rfl⟩
  | number _ _ => exact ⟨fun _ => rfl, fun _ => rfl⟩
  | text s => exact ⟨fun _ => rfl, fun _ => rfl⟩
  | @array items _ ih =>
    cases items with
    | nil => exact ⟨fun _ => rfl, fun _ => rfl⟩
    | cons item items =>
      refine of_values (by rw [tokens]) (by simp) fun stack => ?_
      have first : (tokens item).foldl take (.growing .item (.array [] :: stack)) =
          .growing .more (.array [item] :: stack) := (ih item List.mem_cons_self).2 _
      have later := take_itemTokens (fun i later => (ih i (List.mem_cons_of_mem item later)).1)
        [item] stack
      calc (tokens (.array (item :: items))).foldl take (.growing .value stack)
          = ((itemTokens items).foldl take
              ((tokens item).foldl take (.growing .item (.array [] :: stack)))).take
                .closeArray := by
            rw [tokens, List.foldl_cons, List.foldl_append, List.foldl_append]
            rfl
        _ = complete (.array (items.reverse ++ [item]).reverse) stack := by
            rw [first, later]
            rfl
        _ = complete (.array (item :: items)) stack := by
            rw [List.reverse_append, List.reverse_reverse]
            rfl
  | @object members _ ih =>
    cases members with
    | nil => exact ⟨fun _ => rfl, fun _ => rfl⟩
    | cons m members =>
      obtain ⟨key, value⟩ := m
      refine of_values (by rw [tokens]) (by simp) fun stack => ?_
      have first : (tokens value).foldl take (.growing .value (.object [] key :: stack)) =
          .growing .more (.object [(key, value)] "" :: stack) :=
        (ih (key, value) List.mem_cons_self).1 _
      obtain ⟨last, later⟩ := take_memberTokens
        (fun m later => (ih m (List.mem_cons_of_mem _ later)).1) [(key, value)] "" stack
      calc (tokens (.object ((key, value) :: members))).foldl take (.growing .value stack)
          = ((memberTokens members).foldl take
              ((tokens value).foldl take (.growing .value (.object [] key :: stack)))).take
                .closeObject := by
            rw [tokens, List.foldl_cons, List.foldl_cons, List.foldl_cons, List.foldl_append,
              List.foldl_append]
            rfl
        _ = complete (.object (members.reverse ++ [(key, value)]).reverse) stack := by
            rw [first, later]
            rfl
        _ = complete (.object ((key, value) :: members)) stack := by
            rw [List.reverse_append, List.reverse_reverse]
            rfl

theorem Sound.ofTokens {j : Json} (h : Sound j) : ofTokens (tokens j) = (j, true) := by
  rw [Json.ofTokens, Draft.start, h.completes.1]
  rfl

namespace Token

/-- What stands behind a token does not go on with it, as digits would with a number. -/
def Apart : Token → List Char → Prop
  | .number _, rest => ∀ c ∈ rest.head?, isNumberChar c = false
  | _, _ => True

structure Spelled (t : Token) (cs : List Char) : Prop where
  begins : ∃ c rest, cs = c :: rest ∧ isSpace c = false
  read : ∀ rest, t.Apart rest → next (cs ++ rest) = (t, rest)

end Token

inductive Written : List Char → List Token → Prop
  | nil : Written [] []
  | space {c : Char} {cs : List Char} {ts : List Token} :
      Token.isSpace c = true → Written cs ts → Written (c :: cs) ts
  | token {t : Token} {spelling cs : List Char} {ts : List Token} :
      t.Spelled spelling → t.Apart cs → Written cs ts → Written (spelling ++ cs) (t :: ts)

namespace Token

theorem scan_eq (cs : List Char) :
    scan cs = match cs.dropWhile isSpace with
      | [] => []
      | c :: rest => (next (c :: rest)).1 :: scan (next (c :: rest)).2 := by
  rw [scan]
  split
  next blank => rw [blank]
  next front => simp only [front]

theorem scan_of_written {cs : List Char} {ts : List Token} (h : Written cs ts) : scan cs = ts := by
  induction h with
  | nil => rw [scan_eq]; rfl
  | @space c cs ts space _ ih => rw [scan_eq, List.dropWhile_cons_of_pos space, ← scan_eq, ih]
  | @token t spelling cs ts spelled apart _ ih =>
    obtain ⟨c, rest, rfl, front⟩ := spelled.begins
    have read := spelled.read cs apart
    rw [List.cons_append] at read ⊢
    have dark : ¬ isSpace c = true := by rw [front]; exact Bool.false_ne_true
    rw [scan_eq, List.dropWhile_cons_of_neg dark]
    simp only [read, ih]

theorem spelled_openArray : Spelled .openArray ['['] := ⟨⟨_, _, rfl, rfl⟩, fun _ _ => rfl⟩

theorem spelled_closeArray : Spelled .closeArray [']'] := ⟨⟨_, _, rfl, rfl⟩, fun _ _ => rfl⟩

theorem spelled_openObject : Spelled .openObject ['\x7b'] := ⟨⟨_, _, rfl, rfl⟩, fun _ _ => rfl⟩

theorem spelled_closeObject : Spelled .closeObject ['\x7d'] := ⟨⟨_, _, rfl, rfl⟩, fun _ _ => rfl⟩

theorem spelled_comma : Spelled .comma [','] := ⟨⟨_, _, rfl, rfl⟩, fun _ _ => rfl⟩

theorem spelled_colon : Spelled .colon [':'] := ⟨⟨_, _, rfl, rfl⟩, fun _ _ => rfl⟩

theorem spelled_null : Spelled .null nullText := ⟨⟨_, _, rfl, rfl⟩, fun _ _ => rfl⟩

theorem spelled_bool (b : Bool) : Spelled (.bool b) (boolText b) := by
  cases b <;> exact ⟨⟨_, _, rfl, rfl⟩, fun _ _ => rfl⟩

theorem next_of_isNumberChar {c : Char} (numeric : isNumberChar c = true) (rest : List Char) :
    next (c :: rest) =
      if isNumber (c :: rest.takeWhile isNumberChar) then
        (.number (c :: rest.takeWhile isNumberChar), rest.dropWhile isNumberChar)
      else (.broken, []) := by
  have other {d : Char} (plain : isNumberChar d = false) : c ≠ d := by
    rintro rfl
    rw [numeric] at plain
    cases plain
  rw [next.eq_def]
  split
  case h_11 heq =>
    cases heq
    rw [if_pos numeric]
  case h_12 heq => cases heq
  all_goals
    rename_i heq
    exact absurd (List.cons.inj heq).1 (other rfl)

theorem spelled_number {lexeme : List Char} (number : isNumber lexeme = true)
    (numeric : ∀ c ∈ lexeme, isNumberChar c = true) : Spelled (.number lexeme) lexeme := by
  cases lexeme with
  | nil => cases number
  | cons c cs =>
    have first := numeric c List.mem_cons_self
    have later : ∀ d ∈ cs, isNumberChar d = true := fun d h =>
      numeric d (List.mem_cons_of_mem c h)
    refine ⟨⟨c, cs, rfl, ?_⟩, fun rest apart => ?_⟩
    · cases space : isSpace c with
      | false => rfl
      | true =>
        simp only [isSpace, Bool.or_eq_true, beq_iff_eq] at space
        rcases space with ((rfl | rfl) | rfl) | rfl <;> cases first
    · have stops : rest.takeWhile isNumberChar = [] ∧ rest.dropWhile isNumberChar = rest := by
        cases rest with
        | nil => exact ⟨rfl, rfl⟩
        | cons d rest =>
          have plain : ¬ isNumberChar d = true := by
            rw [apart d rfl]
            exact Bool.false_ne_true
          exact ⟨List.takeWhile_cons_of_neg plain, List.dropWhile_cons_of_neg plain⟩
      rw [List.cons_append, next_of_isNumberChar first, List.takeWhile_append_of_pos later,
        List.dropWhile_append_of_pos later, stops.1, stops.2, List.append_nil, if_pos number]

@[simp] theorem stringBody_escapeChar (c : Char) (cs : List Char) :
    stringBody (escapeChar c ++ cs) =
      (stringBody cs).map fun (body, rest) => (c :: body, rest) := by
  unfold escapeChar
  split
  case h_8 quote backslash _ _ _ _ _ =>
    split
    · rename_i control
      have high : Hex.value? (Hex.digit (c.toNat / 16)) = some (c.toNat / 16) :=
        Hex.value?_digit _ (by omega)
      have low : Hex.value? (Hex.digit (c.toNat % 16)) = some (c.toNat % 16) :=
        Hex.value?_digit _ (by omega)
      have zero : Hex.value? '0' = some 0 := rfl
      have whole : ((0 * 16 + 0) * 16 + c.toNat / 16) * 16 + c.toNat % 16 = c.toNat := by omega
      have code : hex4 '0' '0' (Hex.digit (c.toNat / 16)) (Hex.digit (c.toNat % 16)) =
          some c.toNat := by
        simp only [hex4, zero, high, low, Option.bind_eq_bind, Option.bind_some, Option.pure_def,
          whole]
      have notLow : isLowSurrogate c.toNat = false := by
        simp only [isLowSurrogate, Bool.and_eq_false_imp, decide_eq_true_eq,
          decide_eq_false_iff_not]
        omega
      have notHigh : isHighSurrogate c.toNat = false := by
        simp only [isHighSurrogate, Bool.and_eq_false_imp, decide_eq_true_eq,
          decide_eq_false_iff_not]
        omega
      simp only [List.cons_append, List.nil_append, stringBody, code, notLow, notHigh,
        Bool.false_eq_true, if_false, Char.ofNat_toNat]
    · rename_i plain
      rw [List.singleton_append, stringBody.eq_def]
      split
      case h_4 heq =>
        cases heq
        rw [if_neg]
        rintro (rfl | control)
        · exact backslash rfl
        · exact plain control
      all_goals
        rename_i heq
        first
          | exact absurd (List.cons.inj heq).1 quote
          | exact absurd (List.cons.inj heq).1 backslash
          | cases heq
  all_goals rfl

@[simp] theorem stringBody_escaped (body rest : List Char) :
    stringBody (body.flatMap escapeChar ++ '"' :: rest) = some (body, rest) := by
  induction body with
  | nil => rfl
  | cons c body ih =>
    simp [ih]

theorem spelled_text (s : String) : Spelled (.text s) (quoted s) := by
  refine ⟨⟨_, _, rfl, rfl⟩, fun rest _ => ?_⟩
  have body : stringBody (s.toList.flatMap escapeChar ++ ['"'] ++ rest) =
      some (s.toList, rest) := by
    rw [List.append_assoc]
    exact stringBody_escaped _ _
  rw [quoted, List.cons_append, next, body]
  simp only [String.ofList_toList]

end Token

def Ends (rest : List Char) : Prop :=
  ∀ c ∈ rest.head?, Token.isNumberChar c = false

theorem ends_cons {c : Char} (plain : Token.isNumberChar c = false) (cs : List Char) :
    Ends (c :: cs) := by
  intro d front
  cases front
  exact plain

theorem Ends.apart {rest : List Char} (h : Ends rest) (t : Token) : t.Apart rest := by
  cases t with
  | number lexeme => exact h
  | _ => trivial

namespace Written

theorem newline (depth : Nat) {cs : List Char} {ts : List Token} (h : Written cs ts) :
    Written (newline depth ++ cs) ts := by
  have blanks (k : Nat) : Written (List.replicate k ' ' ++ cs) ts := by
    induction k with
    | zero => exact h
    | succ k ih => exact .space rfl ih
  exact .space rfl (blanks _)

def Prints (j : Json) : Prop :=
  ∀ depth {rest : List Char} {ts : List Token}, Ends rest → Written rest ts →
    Written (indented depth j ++ rest) (tokens j ++ ts)

theorem member (key : String) {value : Json} (h : Prints value) (depth : Nat) {rest : List Char}
    {ts : List Token} (ends : Ends rest) (later : Written rest ts) :
    Written (quoted key ++ [':', ' '] ++ indented depth value ++ rest)
      (.text key :: .colon :: (tokens value ++ ts)) := by
  have value : Written (':' :: ' ' :: (indented depth value ++ rest))
      (.colon :: (tokens value ++ ts)) :=
    .token Token.spelled_colon trivial (.space rfl (h depth ends later))
  simp only [List.append_assoc, List.cons_append, List.nil_append]
  exact .token (Token.spelled_text key) trivial value

theorem items {items : List Json} (h : ∀ item ∈ items, Prints item) (depth : Nat)
    {rest : List Char} {ts : List Token} (ends : Ends rest) (later : Written rest ts) :
    Ends (indentedItems depth items ++ rest) ∧
      Written (indentedItems depth items ++ rest) (itemTokens items ++ ts) := by
  induction items with
  | nil => exact ⟨ends, later⟩
  | cons item items ih =>
    obtain ⟨ends, later⟩ := ih fun i more => h i (List.mem_cons_of_mem item more)
    refine ⟨ends_cons rfl _, ?_⟩
    rw [indentedItems, itemTokens, List.cons_append, List.cons_append, List.append_assoc,
      List.append_assoc, List.append_assoc]
    exact .token Token.spelled_comma trivial
      (Written.newline depth (h item List.mem_cons_self depth ends later))

theorem members {members : List (String × Json)} (h : ∀ m ∈ members, Prints m.2) (depth : Nat)
    {rest : List Char} {ts : List Token} (ends : Ends rest) (later : Written rest ts) :
    Ends (indentedMembers depth members ++ rest) ∧
      Written (indentedMembers depth members ++ rest) (memberTokens members ++ ts) := by
  induction members with
  | nil => exact ⟨ends, later⟩
  | cons m members ih =>
    obtain ⟨key, value⟩ := m
    obtain ⟨ends, later⟩ := ih fun m more => h m (List.mem_cons_of_mem _ more)
    refine ⟨ends_cons rfl _, ?_⟩
    have first := member key (h (key, value) List.mem_cons_self) depth ends later
    rw [indentedMembers, memberTokens]
    simp only [List.cons_append, List.append_assoc] at first ⊢
    exact .token Token.spelled_comma trivial (.newline depth first)

end Written

open Written in
theorem Sound.prints {j : Json} (h : Sound j) : Prints j := by
  induction h with
  | null => exact fun _ _ _ ends later => .token Token.spelled_null (ends.apart _) later
  | bool b => exact fun _ _ _ ends later => .token (Token.spelled_bool b) (ends.apart _) later
  | number number numeric =>
    exact fun _ _ _ ends later => .token (Token.spelled_number number numeric) (ends.apart _) later
  | text s => exact fun _ _ _ ends later => .token (Token.spelled_text s) (ends.apart _) later
  | @array contents _ ih =>
    intro depth rest ts ends later
    cases contents with
    | nil =>
      have close := Written.token Token.spelled_closeArray trivial later
      rw [indented, tokens]
      simp only [List.cons_append, List.nil_append] at close ⊢
      exact .token Token.spelled_openArray trivial close
    | cons item contents =>
      have close := Written.newline depth (.token Token.spelled_closeArray trivial later)
      obtain ⟨ends, more⟩ := items (fun i more => ih i (List.mem_cons_of_mem item more)) (depth + 1)
        (ends_cons rfl _) close
      have first := ih item List.mem_cons_self (depth + 1) ends more
      rw [indented, tokens]
      simp only [List.cons_append, List.nil_append, List.append_assoc] at first ⊢
      exact .token Token.spelled_openArray trivial (.newline (depth + 1) first)
  | @object contents _ ih =>
    intro depth rest ts ends later
    cases contents with
    | nil =>
      have close := Written.token Token.spelled_closeObject trivial later
      rw [indented, tokens]
      simp only [List.cons_append, List.nil_append] at close ⊢
      exact .token Token.spelled_openObject trivial close
    | cons m contents =>
      obtain ⟨key, value⟩ := m
      have close := Written.newline depth (.token Token.spelled_closeObject trivial later)
      obtain ⟨ends, more⟩ := members (fun m more => ih m (List.mem_cons_of_mem _ more)) (depth + 1)
        (ends_cons rfl _) close
      have first := member key (ih (key, value) List.mem_cons_self) (depth + 1) ends more
      rw [indented, tokens]
      simp only [List.cons_append, List.nil_append, List.append_assoc] at first ⊢
      exact .token Token.spelled_openObject trivial (.newline (depth + 1) first)

theorem Sound.read_indented {j : Json} (h : Sound j) :
    read (String.ofList (indented 0 j)) = (j, true) := by
  have ends : Ends [] := fun _ none => by cases none
  have written := h.prints 0 ends .nil
  rw [List.append_nil, List.append_nil] at written
  rw [read, String.toList_ofList, Token.scan_of_written written, h.ofTokens]

end CportNode.Json
