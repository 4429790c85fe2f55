import PatternBuilder.Proofs.Element.Outline
import PatternBuilder.Proofs.Expression.Repetitions

namespace PatternBuilder

structure Line.IsPlain (l : Line) : Prop where
  newline : '\n' ∉ l.label.toList
  blank : l.label.toList.head? ≠ some ' '

namespace Line

variable {l l' : Line} {ls ls' : List Line} {rest rest' : List Char}

def indented (l : Line) : List Char := List.replicate (2 * l.depth) ' ' ++ l.label.toList

theorem toList_text_append (l : Line) (rest : List Char) :
    l.text.toList ++ rest = l.indented ++ '\n' :: rest := by
  simp [text, indented]

theorem IsPlain.newline_not_mem_indented (h : l.IsPlain) : '\n' ∉ l.indented := by
  have hne : '\n' ≠ ' ' := by decide
  simp [indented, List.mem_replicate, h.newline, hne]

theorem IsPlain.takeWhile_indented (h : l.IsPlain) :
    l.indented.takeWhile (· == ' ') = List.replicate (2 * l.depth) ' ' := by
  have hlabel : l.label.toList.takeWhile (· == ' ') = [] := by
    cases hl : l.label.toList with
    | nil => rfl
    | cons c cs =>
      have hc : c ≠ ' ' := by simpa [hl] using h.blank
      simp [hc]
  rw [indented, List.takeWhile_append_of_pos, hlabel, List.append_nil]
  exact fun c hc ↦ beq_iff_eq.mpr (List.eq_of_mem_replicate hc)

theorem IsPlain.eq_of_indented_eq (h : l.IsPlain) (h' : l'.IsPlain)
    (heq : l.indented = l'.indented) : l = l' := by
  have hblanks := congrArg (List.takeWhile (· == ' ')) heq
  rw [h.takeWhile_indented, h'.takeWhile_indented] at hblanks
  have hdepth : l.depth = l'.depth := by
    have hlength := congrArg List.length hblanks
    simp only [List.length_replicate] at hlength
    omega
  rw [indented, indented, hblanks, List.append_cancel_left_eq, String.toList_inj] at heq
  cases l
  cases l'
  exact Line.mk.injEq .. ▸ ⟨hdepth, heq⟩

theorem text_append_inj (h : l.IsPlain) (h' : l'.IsPlain)
    (heq : l.text.toList ++ rest = l'.text.toList ++ rest') : l = l' ∧ rest = rest' := by
  rw [toList_text_append, toList_text_append] at heq
  have hindented : l.indented = l'.indented := by
    rw [← Token.takeWhile_ne_append h.newline_not_mem_indented rest, heq,
      Token.takeWhile_ne_append h'.newline_not_mem_indented]
  rw [hindented, List.append_cancel_left_eq, List.cons.injEq] at heq
  exact ⟨h.eq_of_indented_eq h' hindented, heq.2⟩

theorem flatMap_text_eq_nil (h : ls.flatMap (fun l ↦ l.text.toList) = []) : ls = [] := by
  cases ls with
  | nil => rfl
  | cons l ls => simp [text] at h

theorem eq_of_texts_eq (h : ∀ l ∈ ls, l.IsPlain) (h' : ∀ l ∈ ls', l.IsPlain)
    (heq : String.join (ls.map text) = String.join (ls'.map text)) : ls = ls' := by
  have heq := congrArg String.toList heq
  rw [String.toList_join, String.toList_join, List.flatMap_map, List.flatMap_map] at heq
  induction ls generalizing ls' with
  | nil => exact (flatMap_text_eq_nil heq.symm).symm
  | cons l ls ih =>
    cases ls' with
    | nil => exact flatMap_text_eq_nil heq
    | cons l' ls' =>
      rw [List.flatMap_cons, List.flatMap_cons] at heq
      obtain ⟨rfl, hrest⟩ :=
        text_append_inj (h l List.mem_cons_self) (h' l' List.mem_cons_self) heq
      have htail := ih (fun m hm ↦ h m (List.mem_cons_of_mem l hm))
        (fun m hm ↦ h' m (List.mem_cons_of_mem l hm))
      simp_all

theorem isPlain_caption (depth : Nat) {word : String} {detail : Option String}
    (hw : word.toList.all Char.isAlphanum = true) (hne : word ≠ "")
    (hd : ∀ d, detail = some d → '\n' ∉ d.toList) : IsPlain ⟨depth, caption word detail⟩ where
  newline := by
    have hword : '\n' ∉ word.toList := Token.not_mem_of_all hw rfl
    change '\n' ∉ (caption word detail).toList
    rw [toList_caption]
    cases detail with
    | none => simpa using hword
    | some d => simpa [hword] using hd d rfl
  blank := by
    change (caption word detail).toList.head? ≠ some ' '
    rw [toList_caption]
    cases hl : word.toList with
    | nil => exact absurd (String.toList_eq_nil_iff.mp hl) hne
    | cons c cs =>
      have hc : ' ' ∉ word.toList := Token.not_mem_of_all hw rfl
      rw [hl] at hc
      simpa using (List.ne_of_not_mem_cons hc).symm

end Line

theorem Element.isPlain_label [Property.Engine] {e : Element} (h : e.IsValid) (depth : Nat) :
    Line.IsPlain ⟨depth, e.label⟩ := by
  have hne : e.kindName ≠ "" := List.ne_of_not_mem_cons e.kindName_not_mem_others
  rw [label_eq_caption]
  exact Line.isPlain_caption depth e.all_isAlphanum_kindName hne fun d ↦ newline_not_mem_detail h

/-- What a picture tells of a level: of the quantifier that waits, it has the name only. -/
structure LevelView where
  kind : Option Composite
  elements : List Element
  pending : Option String

namespace LevelView

def ofLevel (l : Option Composite × Level) : LevelView where
  kind := l.1
  elements := l.2.elements
  pending := l.2.pending.map Quantifier.name

structure IsWellFormed [Property.Engine] (v : LevelView) : Prop where
  kind : ∀ k, v.kind = some k → (Element.composite k []).IsValid
  elements : ∀ e ∈ v.elements, e.IsWellFormed
  pending : ∀ name, v.pending = some name → '\n' ∉ name.toList

def headWord (kind : Option Composite) : String := kind.elim "Root" Composite.kindName

def headLabel (kind : Option Composite) : String :=
  caption (headWord kind) (kind.map Composite.openDetail)

def pendingLines (depth : Nat) : Option String → List Line
  | some name => [⟨depth, caption "pending" (some name)⟩]
  | none => []

def lines (depth : Nat) : List LevelView → List Line
  | [] => []
  | v :: vs =>
    ⟨depth, headLabel v.kind⟩ :: (Element.outlineLines (depth + 1) v.elements ++
      (pendingLines (depth + 1) v.pending ++ lines (depth + 1) vs))

theorem all_isAlphanum_headWord (kind : Option Composite) :
    (headWord kind).toList.all Char.isAlphanum = true := by
  cases kind with
  | none => decide
  | some kind => exact Element.all_isAlphanum_kindName (.composite kind [])

theorem blank_not_mem_headWord (kind : Option Composite) : ' ' ∉ (headWord kind).toList :=
  Token.not_mem_of_all (all_isAlphanum_headWord kind) rfl

theorem headWord_ne (kind : Option Composite) : headWord kind ≠ "pending" ∧ headWord kind ≠ "" := by
  cases kind with
  | none => decide
  | some kind =>
    have h := Element.kindName_not_mem_others (.composite kind [])
    simp only [List.mem_cons, not_or] at h
    exact ⟨h.2.2.1, h.1⟩

theorem headLabel_inj {kind kind' : Option Composite} (h : headLabel kind = headLabel kind') :
    kind = kind' := by
  have hd := (caption_inj (blank_not_mem_headWord kind) (blank_not_mem_headWord kind') h).2
  cases kind with
  | none => cases kind' <;> simp_all
  | some kind =>
    cases kind' with
    | none => cases hd
    | some kind' =>
      refine congrArg some (Composite.openLabel_inj ?_)
      rw [Composite.openLabel_eq_caption, Composite.openLabel_eq_caption]
      exact h

theorem headLabel_ne_label [Property.Engine] {e : Element} (he : e.IsValid)
    (kind : Option Composite) :
    headLabel kind ≠ e.label := by
  cases kind with
  | none =>
    intro h
    rw [Element.label_eq_caption] at h
    have hw := (caption_inj (blank_not_mem_headWord none) e.blank_not_mem_kindName h).1
    exact e.kindName_not_mem_others (hw ▸ List.mem_cons_of_mem _ List.mem_cons_self)
  | some kind =>
    have h := Composite.openLabel_ne_label he kind
    rwa [Composite.openLabel_eq_caption] at h

theorem pending_ne_label (e : Element) (name : String) :
    caption "pending" (some name) ≠ e.label := by
  intro h
  rw [Element.label_eq_caption] at h
  have hw := (caption_inj (by decide) e.blank_not_mem_kindName h).1
  refine e.kindName_not_mem_others ?_
  rw [← hw]
  decide

theorem pending_ne_headLabel (kind : Option Composite) (name : String) :
    caption "pending" (some name) ≠ headLabel kind := by
  intro h
  have hw := (caption_inj (by decide) (blank_not_mem_headWord kind) h).1
  exact (headWord_ne kind).1 hw.symm

variable {depth : Nat} {vs vs' : List LevelView} {name name' : Option String}

theorem endsOutline_lines [Property.Engine] (depth : Nat) (name : Option String)
    (vs : List LevelView) :
    Element.EndsOutline depth (pendingLines depth name ++ lines depth vs) := by
  intro l hl
  refine .inr fun e he ↦ ?_
  cases name with
  | some name =>
    cases hl
    exact pending_ne_label e name
  | none =>
    cases vs with
    | nil => cases hl
    | cons v vs =>
      cases hl
      exact headLabel_ne_label he v.kind

theorem pendingLines_ne_lines (depth : Nat) (name : String) (rest : List Line)
    (vs : List LevelView) : pendingLines depth (some name) ++ rest ≠ lines depth vs := by
  intro h
  cases vs with
  | nil => cases h
  | cons v vs => exact pending_ne_headLabel v.kind name (Line.mk.inj (List.cons.inj h).1).2

theorem pendingLines_append_inj
    (h : pendingLines depth name ++ lines depth vs = pendingLines depth name' ++ lines depth vs') :
    name = name' ∧ lines depth vs = lines depth vs' := by
  cases name with
  | none =>
    cases name' with
    | none => exact ⟨rfl, h⟩
    | some name' => exact absurd h.symm (pendingLines_ne_lines depth name' _ vs)
  | some name =>
    cases name' with
    | none => exact absurd h (pendingLines_ne_lines depth name _ vs')
    | some name' =>
      obtain ⟨hl, hrest⟩ := List.cons.inj h
      exact ⟨(caption_inj (by decide) (by decide) (Line.mk.inj hl).2).2, hrest⟩

variable [Property.Engine]

theorem lines_inj (hv : ∀ v ∈ vs, v.IsWellFormed) (hv' : ∀ v ∈ vs', v.IsWellFormed)
    (h : lines depth vs = lines depth vs') : vs = vs' := by
  induction vs generalizing depth vs' with
  | nil =>
    cases vs' with
    | nil => rfl
    | cons v' vs' => cases h
  | cons v vs ih =>
    cases vs' with
    | nil => cases h
    | cons v' vs' =>
      obtain ⟨hhead, hrest⟩ := List.cons.inj h
      have hkind := headLabel_inj (Line.mk.inj hhead).2
      obtain ⟨helements, hrest⟩ := Element.outlineLines_append_inj
        (hv v List.mem_cons_self).elements (hv' v' List.mem_cons_self).elements
        (endsOutline_lines _ _ vs) (endsOutline_lines _ _ vs') hrest
      obtain ⟨hpending, hrest⟩ := pendingLines_append_inj hrest
      have htail := ih (fun w hw ↦ hv w (List.mem_cons_of_mem v hw))
        (fun w hw ↦ hv' w (List.mem_cons_of_mem v' hw)) hrest
      cases v
      cases v'
      simp_all

theorem isPlain_headLabel {kind : Option Composite}
    (h : ∀ k, kind = some k → (Element.composite k []).IsValid) (depth : Nat) :
    Line.IsPlain ⟨depth, headLabel kind⟩ := by
  refine Line.isPlain_caption depth (all_isAlphanum_headWord kind) (headWord_ne kind).2 ?_
  intro d hd
  cases kind with
  | none => cases hd
  | some kind =>
    cases hd
    have hopen : '\n' ∉ "(open)".toList := by decide
    cases kind with
    | namedCapture name =>
      have hname : '\n' ∉ name.toList :=
        Token.not_mem_of_all (Token.all_of_isGroupName (h _ rfl)) rfl
      simp [Composite.openDetail, hname]
    | _ => exact hopen

theorem isPlain_of_mem_lines (hv : ∀ v ∈ vs, v.IsWellFormed) :
    ∀ l ∈ lines depth vs, l.IsPlain := by
  induction vs generalizing depth with
  | nil => exact fun l hl ↦ absurd hl List.not_mem_nil
  | cons v vs ih =>
    have hw := hv v List.mem_cons_self
    intro l hl
    rw [lines, List.mem_cons, List.mem_append, List.mem_append] at hl
    rcases hl with rfl | hl | hl | hl
    · exact isPlain_headLabel hw.kind depth
    · obtain ⟨n, hn, hlabel⟩ := Element.exists_label_of_mem_outlineLines hl
      have hplain := Element.isPlain_label
        (Element.forall_isWellFormed_iff.mp hw.elements n hn) l.depth
      rwa [← hlabel] at hplain
    · cases hp : v.pending with
      | none =>
        rw [hp] at hl
        cases hl
      | some name =>
        rw [hp] at hl
        rw [List.mem_singleton.mp hl]
        refine Line.isPlain_caption _ (by decide) (by decide) fun d hd ↦ ?_
        rw [← Option.some.inj hd]
        exact hw.pending name hp
    · exact ih (fun w hm ↦ hv w (List.mem_cons_of_mem v hm)) l hl

end LevelView

theorem Quantifier.newline_not_mem_name (q : Quantifier) : '\n' ∉ q.name.toList := by
  cases q with
  | optional | exactly n => simp [name]
  | zeroOrMore lazy | oneOrMore lazy | atLeast n lazy | between x y lazy =>
    cases lazy <;> simp [name]

namespace Expression

variable {e e' : Expression}

def views (e : Expression) : List LevelView := e.levels.map LevelView.ofLevel

theorem levelLines_append (depth : Nat) (l : Option Composite × Level) (vs : List LevelView) :
    levelLines { pending := true } depth l.1 l.2 ++ LevelView.lines (depth + 1) vs =
      LevelView.lines depth (LevelView.ofLevel l :: vs) := by
  have hhead : l.1.elim "Root" Composite.openLabel = LevelView.headLabel l.1 := by
    cases l.1 with
    | none => rfl
    | some kind => exact kind.openLabel_eq_caption
  rw [LevelView.lines, LevelView.ofLevel, ← hhead]
  cases hp : l.2.pending <;>
    simp [levelLines, hp, LevelView.pendingLines, caption, Element.outlineLines]

theorem dumpLines_eq (e : Expression) :
    e.dumpLines { pending := true } = LevelView.lines 0 e.views := by
  have hlevels (ls : List (Option Composite × Level)) (depth : Nat) :
      ((ls.zipIdx depth).flatMap fun l ↦ levelLines { pending := true } l.2 l.1.1 l.1.2) =
        LevelView.lines depth (ls.map LevelView.ofLevel) := by
    induction ls generalizing depth with
    | nil => rfl
    | cons l ls ih =>
      rw [List.zipIdx_cons, List.flatMap_cons, ih, List.map_cons, levelLines_append]
  exact hlevels e.levels 0

section

variable [Property.Engine]

theorem isValid_of_mem_levels (h : e.IsWellFormed) {kind : Composite} {level : Level}
    (hl : (some kind, level) ∈ e.levels) : (Element.composite kind []).IsValid := by
  have hmem : ∀ (top : Level) (frames : List Frame), (some kind, level) ∈ levelsFrom top frames →
      ∃ f ∈ frames, f.kind = kind := by
    intro top frames
    induction frames generalizing top with
    | nil => simp [levelsFrom]
    | cons frame frames ih =>
      simp only [levelsFrom, List.mem_cons, Prod.mk.injEq, Option.some.injEq]
      rintro (⟨rfl, -⟩ | hin)
      · exact ⟨frame, .inl rfl, rfl⟩
      · obtain ⟨f, hf, hk⟩ := ih _ hin
        exact ⟨f, .inr hf, hk⟩
  obtain ⟨f, hf, rfl⟩ := hmem _ _ (List.mem_reverse.mp hl)
  exact (h.frames f hf).1

theorem IsWellFormed.views (h : e.IsWellFormed) : ∀ v ∈ e.views, v.IsWellFormed := by
  intro v hv
  obtain ⟨⟨kind, level⟩, hl, rfl⟩ := List.mem_map.mp hv
  refine ⟨fun k hk ↦ ?_, (h.of_mem_levels hl).elements, fun name hname ↦ ?_⟩
  · cases hk
    exact isValid_of_mem_levels h hl
  · obtain ⟨q, -, rfl⟩ := Option.map_eq_some_iff.mp hname
    exact q.newline_not_mem_name

/-- Two expressions have the same picture if and only if they agree level by level: in kind, in
the trees of their elements, and in the name of the quantifier that waits. -/
theorem dump_eq_iff (he : e.Reachable) (he' : e'.Reachable) :
    e.dump { pending := true } = e'.dump { pending := true } ↔ e.views = e'.views := by
  constructor
  · intro h
    rw [dump, dump, dumpLines_eq, dumpLines_eq] at h
    have hv := he.isWellFormed.views
    have hv' := he'.isWellFormed.views
    exact LevelView.lines_inj hv hv' (Line.eq_of_texts_eq (LevelView.isPlain_of_mem_lines hv)
      (LevelView.isPlain_of_mem_lines hv') h)
  · intro h
    rw [dump, dump, dumpLines_eq, dumpLines_eq, h]

end

/-- Counts do not show, and a text that imitates the line of an open group is told from one. -/
theorem dump_eq_iff_of_imitation :
    ∃ _ : Property.Engine, ∃ e e' f,
      empty.run [.openComposite (.namedCapture "a"), .literal (.char 'b'),
        .quantify (.exactly 2)] = .ok e ∧
      empty.run [.openComposite (.namedCapture "a"), .literal (.char 'b'),
        .quantify (.exactly 3)] = .ok e' ∧
      empty.run [.literal (.string "\"\n  NamedCapture a (open)\n    Char 'b'")] = .ok f ∧
      e.dump { pending := true } = e'.dump { pending := true } ∧
      e.dump { pending := true } ≠ f.dump { pending := true } := by
  let engine : Property.Engine := default
  let grouped (n : Nat) : Expression :=
    { level := { elements := [.char 'b'], pending := some (.exactly n) }
      frames := [⟨.namedCapture "a", {}⟩]
      registry := { names := ["a"], captureCount := 1 } }
  let f : Expression :=
    { level := { elements := [.string "\"\n  NamedCapture a (open)\n    Char 'b'"] } }
  have h₂ : empty.run [.openComposite (.namedCapture "a"), .literal (.char 'b'),
      .quantify (.exactly 2)] = .ok (grouped 2) := rfl
  have h₃ : empty.run [.openComposite (.namedCapture "a"), .literal (.char 'b'),
      .quantify (.exactly 3)] = .ok (grouped 3) := rfl
  have hf : empty.run [.literal (.string "\"\n  NamedCapture a (open)\n    Char 'b'")] =
      .ok f := rfl
  have hr₂ : (grouped 2).Reachable := Reachable.empty.run _ (by simp [Call.spliced?]) h₂
  have hr₃ : (grouped 3).Reachable := Reachable.empty.run _ (by simp [Call.spliced?]) h₃
  have hrf : f.Reachable := Reachable.empty.run _ (by simp [Call.spliced?]) hf
  refine ⟨engine, grouped 2, grouped 3, f, h₂, h₃, hf, (dump_eq_iff hr₂ hr₃).mpr rfl, ?_⟩
  refine mt (dump_eq_iff hr₂ hrf).mp fun h ↦ ?_
  exact absurd (congrArg List.length h) (by decide)

end Expression

end PatternBuilder
