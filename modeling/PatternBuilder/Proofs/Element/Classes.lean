import PatternBuilder.Matching.Character
import PatternBuilder.Proofs.Element.NodeText

namespace PatternBuilder

def Mode.plain : Mode := ⟨false, false, false, false⟩

namespace ClassItem

def Has : ClassItem → Char → Prop
  | char d, c => c = d
  | range a b, c => a ≤ c ∧ c ≤ b
  | atom a, c => Mode.plain.atomMatches c a = true

def Accepts (fold : Char → Char) (i : ClassItem) (c : Char) : Prop :=
  ∃ d, i.Has d ∧ fold d = fold c

theorem exists_has {i : ClassItem} (h : i.IsWellFormed) : ∃ c, i.Has c := by
  cases i with
  | char d => exact ⟨d, rfl⟩
  | range a b =>
    have hab : a ≤ b := h
    exact ⟨a, Char.le_refl a, hab⟩
  | atom a =>
    simp only [IsWellFormed, List.mem_cons, List.not_mem_nil, or_false] at h
    rcases h with rfl | rfl | rfl | rfl | rfl | rfl | rfl
    · exact ⟨'\x08', rfl⟩
    · exact ⟨' ', rfl⟩
    · exact ⟨'a', rfl⟩
    · exact ⟨'0', rfl⟩
    · exact ⟨'a', rfl⟩
    · exact ⟨'a', rfl⟩
    · exact ⟨' ', rfl⟩

end ClassItem

/-- A node for one character accepts those that its character or its bracket class has, where
`fold` says which characters are the same. -/
def Node.Accepts (fold : Char → Char) : Node → Char → Prop
  | char d, c => (ClassItem.char d).Accepts fold c
  | set negated items, c => (∃ i ∈ items, i.Accepts fold c) ↔ negated = false
  | _, _ => False

namespace Element

variable {es : List Element}

def fusedItems (es : List Element) : List ClassItem := es.flatMap fun e ↦ e.classItems?.getD []

theorem fused_pieces_eq (es : List Element) :
    Piece.fused (pieces es) = (fusedItems es).flatMap ClassItem.text := by
  rw [fused_pieces, Part.items, parts_eq_map, List.flatMap_map, fusedItems]

theorem isSome_classItems? (e : Element) : e.classItems?.isSome = e.isFusable := by
  rw [← isSome_classBody?, classBody?_eq, Option.isSome_map]

def unfusedTexts (es : List Element) : List (List Char) :=
  (es.filter fun e ↦ !e.isFusable).map text

def fusedClass (negated : Bool) (es : List Element) : List Char :=
  classText negated (Piece.fused (pieces es))

theorem fusedClass_eq (negated : Bool) (es : List Element) :
    fusedClass negated es = classText negated ((fusedItems es).flatMap ClassItem.text) := by
  rw [fusedClass, fused_pieces_eq]

theorem unfused_pieces_eq (es : List Element) : Piece.unfused (pieces es) = unfusedTexts es := by
  have hp : ((fun p : Piece ↦ p.element.classBody?.isNone) ∘ fun e ↦ ⟨e, e.text⟩) =
      fun e ↦ !e.isFusable := by
    funext e
    simp [← isSome_classBody?]
  rw [Piece.unfused, pieces_eq_map, List.filter_map, List.map_map, hp]
  rfl

theorem isWellFormed_fusedItems (h : ∀ a b, .range a b ∈ es → a ≤ b) :
    ∀ i ∈ fusedItems es, i.IsWellFormed := by
  intro i hi
  obtain ⟨e, he, hi⟩ := List.mem_flatMap.mp hi
  cases e with
  | char d =>
    rw [List.mem_singleton.mp hi]
    trivial
  | range a b =>
    rw [List.mem_singleton.mp hi]
    exact h a b he
  | anyOfChars s =>
    obtain ⟨d, -, rfl⟩ := List.mem_map.mp hi
    trivial
  | atom a =>
    cases a with
    | backspace =>
      rw [List.mem_singleton.mp hi]
      simp [ClassItem.IsWellFormed]
    | _ => cases hi
  | _ => cases hi

theorem text_anyOf_eq (es : List Element) :
    (composite .anyOf es).text =
      if unfusedTexts es = [] then fusedClass false es
      else groupText (alternation (unfusedTexts es ++
        if Piece.fused (pieces es) = [] then [] else [fusedClass false es])) := by
  rw [text, Composite.text, Piece.anyOf, unfused_pieces_eq]
  cases unfusedTexts es with
  | nil => rfl
  | cons t ts => cases hf : Piece.fused (pieces es) <;> simp [fusedClass, hf]

def remainderClass (es : List Element) : List Char :=
  if unfusedTexts es ≠ [] ∧ Piece.fused (pieces es) = [] then
    classText false ['\\', 's', '\\', 'S']
  else fusedClass true es

theorem text_anythingBut_eq (es : List Element) :
    (composite .anythingBut es).text =
      if unfusedTexts es = [] then remainderClass es
      else groupText (Lookaround.notAhead.opening ++ alternation (unfusedTexts es) ++
        ')' :: remainderClass es) := by
  rw [text, Composite.text, Piece.anythingBut, unfused_pieces_eq]
  cases hu : unfusedTexts es with
  | nil => simp [remainderClass, hu, fusedClass]
  | cons t ts => cases hf : Piece.fused (pieces es) <;> simp [remainderClass, fusedClass, hf, hu]

end Element

section Reading

variable [Property.Engine]

/-- The text is a pattern of one node that accepts the character. -/
def Matches (text : List Char) (fold : Char → Char) (c : Char) : Prop :=
  ∃ n, Token.all text = .ok [.leaf n] ∧ n.Accepts fold c

/-- The text is that of a single bracket class, whatever stands behind it, and the class accepts
the characters of a set. -/
def IsClassOf (text : List Char) (S : (Char → Char) → Char → Prop) : Prop :=
  (∃ negated items, ∀ rest,
    Token.all (text ++ rest) = (Token.all rest).map (.leaf (.set negated items) :: ·)) ∧
  ∀ fold c, Matches text fold c ↔ S fold c

theorem matches_leaf {text : List Char} {n : Node} {fold : Char → Char} {c : Char}
    (h : ∀ rest, Token.all (text ++ rest) = (Token.all rest).map (.leaf n :: ·)) :
    Matches text fold c ↔ n.Accepts fold c := by
  have hall : Token.all text = .ok [.leaf n] := by simpa [Token.all, Except.map] using h []
  constructor
  · rintro ⟨m, hm, hc⟩
    rw [hall] at hm
    cases hm
    exact hc
  · exact fun hc ↦ ⟨n, hall, hc⟩

theorem all_classText {items : List ClassItem} (h : ∀ i ∈ items, i.IsWellFormed)
    (negated : Bool) (rest : List Char) :
    Token.all (classText negated (items.flatMap ClassItem.text) ++ rest) =
      (Token.all rest).map (.leaf (.set negated items) :: ·) :=
  Token.all_leafText (n := .set negated items) rfl h nofun

end Reading

namespace Element

section Reading

variable [Property.Engine]

variable {es : List Element} {e : Element} {fold : Char → Char} {c : Char}

/-- What the members of a choice that can stand in a bracket class match, each by itself. -/
def MembersMatch (es : List Element) (fold : Char → Char) (c : Char) : Prop :=
  ∃ e ∈ es, e.isFusable = true ∧ Matches e.text fold c

theorem matches_text {is : List ClassItem} (hi : e.classItems? = some is)
    (hw : ∀ i ∈ is, i.IsWellFormed) :
    Matches e.text fold c ↔ ∃ i ∈ is, i.Accepts fold c := by
  have hset (ht : e.text = classText false (is.flatMap ClassItem.text)) :
      Matches e.text fold c ↔ ∃ i ∈ is, i.Accepts fold c := by
    rw [ht, matches_leaf (all_classText hw false)]
    exact iff_true_right rfl
  have hb : e.classBody? = some (is.flatMap ClassItem.text) := by
    rw [classBody?_eq, hi, Option.map_some]
  cases e with
  | char d =>
    cases hi
    refine (matches_leaf (n := .char d) fun rest ↦ ?_).trans (by simp [Node.Accepts])
    exact Token.all_leafText (n := .char d) rfl trivial nofun
  | range a b | anyOfChars s => exact hset (by rw [text, Option.some.inj hb])
  | atom a =>
    cases a with
    | backspace => exact hset (by rw [← Option.some.inj hb]; rfl)
    | _ => cases hi
  | _ => cases hi

theorem exists_fusedItems (hw : ∀ i ∈ fusedItems es, i.IsWellFormed) :
    (∃ i ∈ fusedItems es, i.Accepts fold c) ↔ MembersMatch es fold c := by
  have hmember (e : Element) (he : e ∈ es) :
      (∃ i ∈ e.classItems?.getD [], i.Accepts fold c) ↔
        e.isFusable = true ∧ Matches e.text fold c := by
    rw [← isSome_classItems?]
    cases hi : e.classItems? with
    | none => simp
    | some is =>
      have his : ∀ i ∈ is, i.IsWellFormed := fun i hmem ↦
        hw i (List.mem_flatMap.mpr ⟨e, he, by rwa [hi]⟩)
      simp [matches_text hi his]
  constructor
  · rintro ⟨i, hi, hc⟩
    obtain ⟨e, he, hi⟩ := List.mem_flatMap.mp hi
    exact ⟨e, he, (hmember e he).mp ⟨i, hi, hc⟩⟩
  · rintro ⟨e, he, hc⟩
    obtain ⟨i, hi, hc⟩ := (hmember e he).mpr hc
    exact ⟨i, List.mem_flatMap.mpr ⟨e, he, hi⟩, hc⟩

theorem isClassOf_members (h : ∀ a b, .range a b ∈ es → a ≤ b) :
    IsClassOf (fusedClass false es) (MembersMatch es) := by
  have hw := isWellFormed_fusedItems h
  have hall := all_classText hw false
  rw [fusedClass_eq]
  refine ⟨⟨false, fusedItems es, hall⟩, fun fold c ↦ ?_⟩
  rw [matches_leaf hall, Node.Accepts, exists_fusedItems hw]
  exact iff_true_right rfl

theorem isClassOf_others (h : ∀ a b, .range a b ∈ es → a ≤ b) :
    IsClassOf (fusedClass true es) fun fold c ↦ ¬MembersMatch es fold c := by
  have hw := isWellFormed_fusedItems h
  have hall := all_classText hw true
  rw [fusedClass_eq]
  refine ⟨⟨true, fusedItems es, hall⟩, fun fold c ↦ ?_⟩
  rw [matches_leaf hall, Node.Accepts, exists_fusedItems hw]
  exact iff_false_right (Bool.noConfusion)

theorem isClassOf_everything {S : (Char → Char) → Char → Prop} (h : ∀ fold c, S fold c) :
    IsClassOf (classText false ['\\', 's', '\\', 'S']) S := by
  have hw : ∀ i ∈ [ClassItem.atom .whitespace, .atom .nonWhitespace], i.IsWellFormed := by
    simp [ClassItem.IsWellFormed]
  have hall := all_classText hw false
  refine ⟨⟨false, _, hall⟩, fun fold c ↦ iff_of_true ((matches_leaf hall).mpr ?_) (h fold c)⟩
  refine iff_of_true ?_ rfl
  cases hb : isBlank c with
  | true => exact ⟨_, List.mem_cons_self, c, hb, rfl⟩
  | false => exact ⟨_, List.mem_cons_of_mem _ List.mem_cons_self, c, congrArg not hb, rfl⟩

theorem fused_eq_nil_iff (h : ∀ a b, .range a b ∈ es → a ≤ b) (fold : Char → Char) :
    Piece.fused (pieces es) = [] ↔ ∀ c, ¬MembersMatch es fold c := by
  have hw := isWellFormed_fusedItems h
  rw [fused_pieces_eq]
  cases hi : fusedItems es with
  | nil => simp [← exists_fusedItems hw, hi]
  | cons i is =>
    have hmem : i ∈ fusedItems es := hi ▸ List.mem_cons_self
    obtain ⟨c, hc⟩ := ClassItem.exists_has (hw i hmem)
    refine iff_of_false (by simp [text_ne_nil]) fun hnone ↦ hnone c ?_
    exact (exists_fusedItems hw).mp ⟨i, hmem, c, hc, rfl⟩

theorem isClassOf_remainderClass (h : ∀ a b, .range a b ∈ es → a ≤ b) :
    IsClassOf (remainderClass es) fun fold c ↦ ¬MembersMatch es fold c := by
  unfold remainderClass
  split
  · rename_i hempty
    exact isClassOf_everything fun fold ↦ (fused_eq_nil_iff h fold).mp hempty.2
  · exact isClassOf_others h

/-- A choice keeps the elements that cannot stand in a bracket class as alternatives, each with its
own text and in their order. What is left goes into one class, which is read back as such and
accepts what one of its elements matches by itself; it is left out only if it is empty and there
are alternatives. In a choice that is turned round, the class accepts what is left over. -/
theorem fused_class_is_union (h : ∀ a b, .range a b ∈ es → a ≤ b) :
    IsClassOf (fusedClass false es) (MembersMatch es) ∧
    (unfusedTexts es = [] → (composite .anyOf es).text = fusedClass false es) ∧
    (unfusedTexts es ≠ [] → ∀ fold,
      ((∃ c, MembersMatch es fold c) → (composite .anyOf es).text =
        groupText (alternation (unfusedTexts es ++ [fusedClass false es]))) ∧
      ((∀ c, ¬MembersMatch es fold c) → (composite .anyOf es).text =
        groupText (alternation (unfusedTexts es)))) ∧
    ∃ remainder, IsClassOf remainder (fun fold c ↦ ¬MembersMatch es fold c) ∧
      (unfusedTexts es = [] → (composite .anythingBut es).text = remainder) ∧
      (unfusedTexts es ≠ [] → (composite .anythingBut es).text =
        groupText (Lookaround.notAhead.opening ++ alternation (unfusedTexts es) ++
          ')' :: remainder)) := by
  refine ⟨isClassOf_members h, fun hu ↦ ?_, fun hu fold ↦ ⟨fun hc ↦ ?_, fun hnone ↦ ?_⟩,
    remainderClass es, isClassOf_remainderClass h, fun hu ↦ ?_, fun hu ↦ ?_⟩
  · rw [text_anyOf_eq, if_pos hu]
  · have hf : Piece.fused (pieces es) ≠ [] := by
      rw [Ne, fused_eq_nil_iff h fold]
      exact not_forall_not.mpr hc
    rw [text_anyOf_eq, if_neg hu, if_neg hf]
  · rw [text_anyOf_eq, if_neg hu, if_pos ((fused_eq_nil_iff h fold).mpr hnone), List.append_nil]
  · rw [text_anythingBut_eq, if_pos hu]
  · rw [text_anythingBut_eq, if_neg hu]

end Reading

/-- Among characters with a meaning of their own, a hyphen, a caret and a bracket stay members of
the class, and the interval around the hyphen is one of characters. -/
theorem fused_class_of_specials :
    ∃ _ : Property.Engine, ∃ es,
      es = [.char '^', .string "ab", .range '+' '/', .anyOfChars "]\\-", .atom .digit,
        .atom .backspace] ∧
      (composite .anyOf es).text = "(?:ab|\\d|[\\^\\+-\\/\\]\\\\\\-\\b])".toList ∧
      IsClassOf "[\\^\\+-\\/\\]\\\\\\-\\b]".toList (MembersMatch es) := by
  let engine : Property.Engine := default
  let es : List Element := [.char '^', .string "ab", .range '+' '/', .anyOfChars "]\\-",
    .atom .digit, .atom .backspace]
  have hrange : ∀ a b, .range a b ∈ es → a ≤ b := by
    intro a b hab
    obtain ⟨rfl, rfl⟩ : a = '+' ∧ b = '/' := by simpa [es] using hab
    decide
  have hcaret : MembersMatch es id '^' := by
    refine ⟨.char '^', List.mem_cons_self, rfl, ?_⟩
    exact (matches_text rfl (by simp [ClassItem.IsWellFormed])).mpr
      ⟨.char '^', List.mem_cons_self, '^', rfl, rfl⟩
  obtain ⟨hclass, -, htext, -⟩ := fused_class_is_union hrange
  have htext := (htext (by decide) id).1 ⟨'^', hcaret⟩
  exact ⟨engine, es, rfl, htext, hclass⟩

end Element

end PatternBuilder
