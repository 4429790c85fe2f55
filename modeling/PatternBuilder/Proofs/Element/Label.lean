import Mathlib.Data.List.Nodup
import Mathlib.Data.List.TakeWhile
import PatternBuilder.Expression.Dump
import PatternBuilder.Proofs.Element.Validity
import PatternBuilder.Proofs.Expression.Heads
import PatternBuilder.Proofs.Grammar.Tokens
import PatternBuilder.Proofs.Text.Quoted

namespace PatternBuilder

def Atom.all : List Atom :=
  [.anyChar, .whitespace, .nonWhitespace, .digit, .nonDigit, .word, .nonWord, .newline,
    .carriageReturn, .tab, .verticalTab, .formFeed, .backspace, .nullByte]

def Composite.unnamed : Composite → Composite
  | namedCapture _ => namedCapture ""
  | kind => kind

def caption (word : String) : Option String → String
  | some detail => word ++ " " ++ detail
  | none => word

theorem toList_caption (word : String) (detail : Option String) :
    (caption word detail).toList = word.toList ++ (detail.elim [] fun d ↦ ' ' :: d.toList) := by
  cases detail <;> simp [caption]

/-- The first blank is where the detail begins. -/
theorem caption_inj {word word' : String} {detail detail' : Option String}
    (hw : ' ' ∉ word.toList) (hw' : ' ' ∉ word'.toList)
    (h : caption word detail = caption word' detail') : word = word' ∧ detail = detail' := by
  have hword {w : String} (hw : ' ' ∉ w.toList) (d : Option String) :
      (caption w d).toList.takeWhile (· != ' ') = w.toList := by
    rw [toList_caption]
    cases d with
    | none =>
      rw [Option.elim_none, List.append_nil]
      exact List.takeWhile_eq_self_iff.mpr fun c hc ↦ bne_iff_ne.mpr (ne_of_mem_of_not_mem hc hw)
    | some d => exact Token.takeWhile_ne_append hw d.toList
  have heq : word = word' := by
    rw [← String.toList_inj, ← hword hw detail, h, hword hw' detail']
  subst heq
  have hl := congrArg String.toList h
  rw [toList_caption, toList_caption, List.append_cancel_left_eq] at hl
  refine ⟨rfl, ?_⟩
  cases detail <;> cases detail' <;> simp_all [String.toList_inj]

namespace Element

def shape : Element → Element
  | char _ => char ' '
  | string _ => string ""
  | range _ _ => range ' ' ' '
  | anyOfChars _ => anyOfChars ""
  | anythingButChars _ => anythingButChars ""
  | anythingButString _ => anythingButString ""
  | anythingButRange _ _ => anythingButRange ' ' ' '
  | controlChar _ => controlChar ' '
  | code form _ => code form ""
  | property negated _ => property negated ""
  | backreference _ => backreference 0
  | namedBackreference _ => namedBackreference ""
  | quantified _ _ => quantified .optional noop
  | composite kind _ => composite kind.unnamed []
  | subexpression _ => subexpression []
  | e => e

def shapes : List Element :=
  Atom.all.map atom ++
    [boundary .edge, boundary .noEdge, anchor .start, anchor .finish, noop, char ' ', string "",
      range ' ' ' ', anyOfChars "", anythingButChars "", anythingButString "",
      anythingButRange ' ' ' ', controlChar ' ', code .byte "", code .unit "", code .point "",
      property false "", property true "", backreference 0, namedBackreference "",
      quantified .optional noop, composite .anyOf [], composite .anythingBut [],
      composite .group [], composite .capture [], composite (.namedCapture "") [],
      composite (.look .ahead) [], composite (.look .notAhead) [], composite (.look .behind) [],
      composite (.look .notBehind) [], subexpression []]

theorem nodup_kindNames : (shapes.map kindName).Nodup := by decide +kernel

theorem shape_mem_shapes (e : Element) : e.shape ∈ shapes := by
  cases e with
  | atom a => cases a <;> simp [shape, shapes, Atom.all]
  | boundary b => cases b <;> simp [shape, shapes]
  | anchor a => cases a <;> simp [shape, shapes]
  | code form s => cases form <;> simp [shape, shapes]
  | property negated s => cases negated <;> simp [shape, shapes]
  | composite kind es =>
    cases kind with
    | look l => cases l <;> simp [shape, shapes, Composite.unnamed]
    | _ => simp [shape, shapes, Composite.unnamed]
  | _ => simp [shape, shapes]

theorem kindName_shape (e : Element) : e.shape.kindName = e.kindName := by
  cases e with
  | code form s => cases form <;> rfl
  | property negated s => cases negated <;> rfl
  | composite kind es => cases kind <;> rfl
  | _ => rfl

variable {e f : Element}

theorem shape_eq_of_kindName_eq (h : e.kindName = f.kindName) : e.shape = f.shape := by
  rw [← kindName_shape e, ← kindName_shape f] at h
  exact List.inj_on_of_nodup_map nodup_kindNames e.shape_mem_shapes f.shape_mem_shapes h

theorem head_eq_of_shape_eq [Property.Engine] (he : e.IsValid) (hf : f.IsValid)
    (hs : e.shape = f.shape) (hd : e.detail = f.detail) : e.head = f.head := by
  -- shapes agree within one kind only, so that one case for each kind is left
  cases e <;> cases f <;> try cases hs
  case char.char => exact congrArg char (quotedChar_inj (Option.some.inj hd))
  case string.string => exact congrArg string (quoted_inj (Option.some.inj hd))
  case anyOfChars.anyOfChars => exact congrArg anyOfChars (quoted_inj (Option.some.inj hd))
  case anythingButChars.anythingButChars =>
    exact congrArg anythingButChars (quoted_inj (Option.some.inj hd))
  case anythingButString.anythingButString =>
    exact congrArg anythingButString (quoted_inj (Option.some.inj hd))
  case range.range | anythingButRange.anythingButRange =>
    obtain ⟨rfl, rfl⟩ := quotedChar_range_inj (Option.some.inj hd)
    rfl
  case controlChar.controlChar =>
    have hcd := congrArg String.toList (Option.some.inj hd)
    exact congrArg controlChar (by simpa using hcd)
  case backreference.backreference i j =>
    have hij : Quantifier.decimal i = Quantifier.decimal j := by
      have hl := congrArg String.toList (Option.some.inj hd)
      simpa [Nat.toString_eq_ofList_toDigits, Quantifier.decimal] using hl
    have hvalue := congrArg Token.numberValue hij
    rw [Token.numberValue_decimal, Token.numberValue_decimal] at hvalue
    exact congrArg backreference hvalue
  case quantified.quantified q e r f =>
    have hq : q = r := Token.suffix_inj he.1.isWellFormed hf.1.isWellFormed
      (String.ofList_injective (Option.some.inj hd))
    exact congrArg (quantified · noop) hq
  case composite.composite kind es kind' fs =>
    cases kind <;> cases kind' <;> cases hs
    case namedCapture.namedCapture =>
      cases hd
      rfl
    all_goals rfl
  case code.code | property.property | namedBackreference.namedBackreference =>
    cases hd
    rfl
  case atom.atom | boundary.boundary | anchor.anchor | noop.noop
    | subexpression.subexpression => rfl

theorem eq_of_head_eq (hh : e.head = f.head) (hc : e.children = f.children) : e = f := by
  cases e <;> cases f <;> simp_all [head, children]

theorem all_isAlphanum_kindName (e : Element) : e.kindName.toList.all Char.isAlphanum = true := by
  have hall : ∀ s ∈ shapes, s.kindName.toList.all Char.isAlphanum = true := by decide +kernel
  rw [← kindName_shape]
  exact hall e.shape e.shape_mem_shapes

theorem blank_not_mem_kindName (e : Element) : ' ' ∉ e.kindName.toList :=
  Token.not_mem_of_all e.all_isAlphanum_kindName rfl

theorem kindName_not_mem_others (e : Element) : e.kindName ∉ ["", "Root", "pending"] := by
  have hall : ∀ s ∈ shapes, s.kindName ∉ ["", "Root", "pending"] := by decide +kernel
  rw [← kindName_shape]
  exact hall e.shape e.shape_mem_shapes

theorem label_eq_caption (e : Element) : e.label = caption e.kindName e.detail := by
  unfold label caption
  cases e.detail <;> rfl

/-- What a line shows of an element is all of it but the elements below. -/
theorem head_eq_of_label_eq [Property.Engine] (he : e.IsValid) (hf : f.IsValid)
    (h : e.label = f.label) :
    e.head = f.head := by
  rw [label_eq_caption, label_eq_caption] at h
  obtain ⟨hk, hd⟩ := caption_inj e.blank_not_mem_kindName f.blank_not_mem_kindName h
  exact head_eq_of_shape_eq he hf (shape_eq_of_kindName_eq hk) hd

theorem newline_not_mem_detail [Property.Engine] (h : e.IsValid) {d : String}
    (hd : e.detail = some d) :
    '\n' ∉ d.toList := by
  have hchar (c : Char) : '\n' ∉ (quotedChar c).toList := by
    rw [toList_quotedChar]
    exact newline_not_mem_quoteWith (by decide) [c]
  have htext (s : String) : '\n' ∉ (quoted s).toList := by
    rw [quoted, String.toList_ofList]
    exact newline_not_mem_quoteWith (by decide) s.toList
  cases e with
  | char c =>
    cases hd
    exact hchar c
  | string s | anyOfChars s | anythingButChars s | anythingButString s =>
    cases hd
    exact htext s
  | range a b | anythingButRange a b =>
    cases hd
    simp [hchar]
  | controlChar c =>
    cases hd
    have hupper : c.isUpper = true := h
    have hc : '\n' ≠ c := by
      rintro rfl
      exact absurd hupper (by decide)
    simpa using hc
  | code form s =>
    cases hd
    have hs := (Bool.and_eq_true_iff.mp h).2
    exact Token.not_mem_of_all hs (by decide)
  | property negated s =>
    cases hd
    exact Token.not_mem_of_all (Token.all_of_isAccepted h) (by decide)
  | namedBackreference s =>
    cases hd
    exact Token.not_mem_of_all (Token.all_of_isGroupName h) (by decide)
  | backreference i =>
    cases hd
    rw [Nat.toString_eq_ofList_toDigits, String.toList_ofList]
    exact Token.not_mem_decimal rfl i
  | quantified q e =>
    cases hd
    rw [String.toList_ofList]
    exact Token.not_mem_suffix rfl (by decide) q
  | composite kind es =>
    cases kind with
    | namedCapture s =>
      cases hd
      exact Token.not_mem_of_all (Token.all_of_isGroupName h) (by decide)
    | _ => cases hd
  | _ => cases hd

end Element

def Composite.openDetail : Composite → String
  | namedCapture name => name ++ " (open)"
  | _ => "(open)"

namespace Composite

theorem openLabel_eq_caption (kind : Composite) :
    kind.openLabel = caption kind.kindName (some kind.openDetail) := by
  cases kind <;> simp [openLabel, caption, openDetail, String.append_assoc]

variable {kind kind' : Composite}

theorem blank_not_mem_kindName (kind : Composite) : ' ' ∉ kind.kindName.toList :=
  Element.blank_not_mem_kindName (.composite kind [])

theorem unnamed_eq_of_kindName_eq (h : kind.kindName = kind'.kindName) :
    kind.unnamed = kind'.unnamed := by
  have hs := Element.shape_eq_of_kindName_eq (e := .composite kind []) (f := .composite kind' []) h
  exact (Element.composite.inj hs).1

theorem openLabel_inj (h : kind.openLabel = kind'.openLabel) : kind = kind' := by
  rw [openLabel_eq_caption, openLabel_eq_caption] at h
  obtain ⟨hk, hd⟩ := caption_inj kind.blank_not_mem_kindName kind'.blank_not_mem_kindName h
  have hu := unnamed_eq_of_kindName_eq hk
  cases kind with
  | namedCapture name =>
    cases kind' with
    | namedCapture name' =>
      have hn := congrArg String.toList (Option.some.inj hd)
      simp only [openDetail, String.toList_append, List.append_cancel_right_eq,
        String.toList_inj] at hn
      rw [hn]
    | _ => cases hu
  | _ =>
    cases kind' <;> cases hu
    rfl

theorem openLabel_ne_label [Property.Engine] {e : Element} (he : e.IsValid) (kind : Composite) :
    kind.openLabel ≠ e.label := by
  intro h
  rw [openLabel_eq_caption, Element.label_eq_caption] at h
  obtain ⟨hk, hd⟩ := caption_inj kind.blank_not_mem_kindName e.blank_not_mem_kindName h
  have hs := Element.shape_eq_of_kindName_eq (e := .composite kind []) hk
  cases e with
  | composite kind' es =>
    have hu : kind.unnamed = kind'.unnamed := (Element.composite.inj hs).1
    cases kind' with
    | namedCapture name' =>
      cases kind with
      | namedCapture name =>
        have hblank : ' ' ∉ name'.toList :=
          Token.not_mem_of_all (Token.all_of_isGroupName he) (by decide)
        rw [← Option.some.inj hd] at hblank
        simp [openDetail] at hblank
      | _ => cases hu
    | _ => cases hd
  | _ => cases hs

end Composite

end PatternBuilder
