import PatternBuilder.Proofs.Element.Label

namespace PatternBuilder

namespace Element

theorem outline_eq_cons (depth : Nat) (e : Element) :
    outline depth e = (depth, e) :: outlineAll (depth + 1) e.children := by
  cases e <;> simp [outline, outlineAll, children]

def outlineLines (depth : Nat) (es : List Element) : List Line :=
  (outlineAll depth es).map fun (d, el) ↦ ⟨d, el.label⟩

theorem outlineLines_cons (depth : Nat) (e : Element) (es : List Element) :
    outlineLines depth (e :: es) =
      ⟨depth, e.label⟩ :: (outlineLines (depth + 1) e.children ++ outlineLines depth es) := by
  simp [outlineLines, outlineAll, outline_eq_cons]

variable {depth : Nat} {es fs : List Element} {rest rest' : List Line}

theorem exists_label_of_mem_outlineLines {l : Line} (h : l ∈ outlineLines depth es) :
    ∃ n ∈ nodesAll es, l.label = n.label := by
  have hnodes : (outlineAll depth es).map Prod.snd = nodesAll es :=
    map_snd_outlineAll (fun e _ d ↦ map_snd_outline e d) depth
  obtain ⟨⟨d, n⟩, hn, rfl⟩ := List.mem_map.mp h
  exact ⟨n, hnodes ▸ List.mem_map_of_mem hn, rfl⟩

variable [Property.Engine]

/-- The lines do not go on with an element at the depth. -/
def EndsOutline (depth : Nat) (lines : List Line) : Prop :=
  ∀ l ∈ lines.head?, l.depth < depth ∨ ∀ e : Element, e.IsValid → l.label ≠ e.label

theorem EndsOutline.succ (h : EndsOutline depth rest) :
    EndsOutline (depth + 1) rest :=
  fun l hl ↦ (h l hl).imp_left Nat.lt_succ_of_lt

/-- What is below an element ends where the next element begins, or where the elements end. -/
theorem EndsOutline.outlineLines_append (h : EndsOutline depth rest)
    (es : List Element) :
    EndsOutline (depth + 1) (outlineLines depth es ++ rest) := by
  cases es with
  | nil => exact h.succ
  | cons e es =>
    rw [outlineLines_cons]
    intro l hl
    cases hl
    exact .inl (Nat.lt_succ_self depth)

theorem EndsOutline.ne_outlineLines_cons (h : EndsOutline depth rest)
    {e : Element} (he : e.IsWellFormed) : rest ≠ outlineLines depth (e :: es) ++ rest' := by
  intro heq
  have hl := h ⟨depth, e.label⟩ (by rw [heq, outlineLines_cons]; rfl)
  rcases hl with hl | hl
  · exact absurd hl (Nat.lt_irrefl depth)
  · exact hl e he.isValid rfl

def TellsChildren (e : Element) : Prop :=
  ∀ {depth : Nat} {fs : List Element} {rest rest' : List Line}, e.IsWellFormed →
    (∀ f ∈ fs, f.IsWellFormed) → EndsOutline depth rest → EndsOutline depth rest' →
    outlineLines depth e.children ++ rest = outlineLines depth fs ++ rest' →
      e.children = fs ∧ rest = rest'

theorem outlineLines_append_inj_of (hc : ∀ e ∈ es, e.TellsChildren)
    (hes : ∀ e ∈ es, e.IsWellFormed) (hfs : ∀ f ∈ fs, f.IsWellFormed)
    (hr : EndsOutline depth rest) (hr' : EndsOutline depth rest')
    (h : outlineLines depth es ++ rest = outlineLines depth fs ++ rest') :
    es = fs ∧ rest = rest' := by
  induction es generalizing fs with
  | nil =>
    cases fs with
    | nil => exact ⟨rfl, h⟩
    | cons f fs => exact absurd h (hr.ne_outlineLines_cons (hfs f List.mem_cons_self))
  | cons e es ih =>
    cases fs with
    | nil => exact absurd h.symm (hr'.ne_outlineLines_cons (hes e List.mem_cons_self))
    | cons f fs =>
      have he := hes e List.mem_cons_self
      have hf := hfs f List.mem_cons_self
      rw [outlineLines_cons, outlineLines_cons, List.cons_append, List.cons_append,
        List.append_assoc, List.append_assoc, List.cons.injEq, Line.mk.injEq] at h
      obtain ⟨⟨-, hlabel⟩, hlines⟩ := h
      have hhead := head_eq_of_label_eq he.isValid hf.isValid hlabel
      obtain ⟨hchildren, hlines⟩ := hc e List.mem_cons_self he (fun c ↦ hf.of_mem)
        (hr.outlineLines_append es) (hr'.outlineLines_append fs) hlines
      obtain ⟨hrest, hends⟩ := ih (fun c hm ↦ hc c (List.mem_cons_of_mem e hm))
        (fun c hm ↦ hes c (List.mem_cons_of_mem e hm))
        (fun c hm ↦ hfs c (List.mem_cons_of_mem f hm)) hlines
      exact ⟨by rw [eq_of_head_eq hhead hchildren, hrest], hends⟩

theorem tellsChildren (e : Element) : e.TellsChildren := by
  induction e using induction_of_children with
  | h e ih =>
    intro depth fs rest rest' he hfs hr hr' h
    exact outlineLines_append_inj_of ih (fun c ↦ he.of_mem) hfs hr hr' h

/-- The lines of elements cannot be taken for those of others, whatever stands behind the two. -/
theorem outlineLines_append_inj (hes : ∀ e ∈ es, e.IsWellFormed)
    (hfs : ∀ f ∈ fs, f.IsWellFormed) (hr : EndsOutline depth rest) (hr' : EndsOutline depth rest')
    (h : outlineLines depth es ++ rest = outlineLines depth fs ++ rest') :
    es = fs ∧ rest = rest' :=
  outlineLines_append_inj_of (fun e _ ↦ e.tellsChildren) hes hfs hr hr' h

end Element

end PatternBuilder
