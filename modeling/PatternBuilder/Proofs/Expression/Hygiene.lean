import PatternBuilder.Proofs.Expression.Targets

namespace PatternBuilder

namespace Expression

/-- Where a node of a spliced expression stands in its host: behind the nodes of the host, the
quantifier that waited there, and the node of the spliced expression as a whole. -/
def splicePosition (host : Expression) (p : Nat) : Nat :=
  host.heads.length + (Element.quantifierHead host.level.pending).length + 1 + p

/-- The nodes of one expression are found in another, at the positions that the function gives:
more steps were taken since, and the outcome was put into other expressions. -/
inductive CarriedTo [Property.Engine] (e : Expression) : (Nat → Nat) → Expression → Prop
  | refl : CarriedTo e id e
  | step {f : Nat → Nat} {e₁ e₂ : Expression} {c : Call} (h : CarriedTo e f e₁)
      (hc : ∀ other, c.spliced? = some other → other.Reachable) (ha : e₁.apply c = .ok e₂) :
      CarriedTo e f e₂
  | splice {f : Nat → Nat} {other host e₂ : Expression} {options : SpliceOptions}
      (h : CarriedTo e f other) (hh : host.Reachable)
      (ha : host.splice other options = .ok e₂) : CarriedTo e (host.splicePosition ∘ f) e₂

variable {e e' host other : Expression} {options : SpliceOptions} {f : Nat → Nat}

theorem Reachable.splice [Property.Engine] (hh : host.Reachable) (ho : other.Reachable)
    (h : host.splice other options = .ok e') : e'.Reachable :=
  .step (c := .splice other options) hh (fun _ heq ↦ Option.some.inj heq ▸ ho) h

theorem CarriedTo.reachable [Property.Engine] (h : e.CarriedTo f e') (he : e.Reachable) :
    e'.Reachable := by
  induction h with
  | refl => exact he
  | step _ hc ha ih => exact .step ih hc ha
  | splice _ hh ha ih => exact hh.splice ih ha

theorem Consistent.nodup_names (h : e.Consistent) : (Element.groups e.heads).reduceOption.Nodup :=
  h.records.names_eq ▸ h.records.nodup

section

variable [Property.Engine]

theorem getElem?_heads_splice (h : host.splice other options = .ok e') (p : Nat) :
    e'.heads[host.splicePosition p]? =
      other.heads[p]?.map (Element.relocate options host.captureCount) := by
  rw [heads_splice h, List.getElem?_append_right, List.getElem?_map]
  · congr 2
    simp only [splicePosition, List.length_append, List.length_singleton]
    omega
  · simp only [splicePosition, List.length_append, List.length_singleton]
    omega

theorem isTarget_splice (hh : host.Reachable) (ho : other.Reachable)
    (h : host.splice other options = .ok e') {n : Element} {t : Nat}
    (ht : n.IsTarget other.heads t) :
    (n.relocate options host.captureCount).IsTarget e'.heads (host.splicePosition t) := by
  have hd := (hh.splice ho h).consistent.nodup_names
  rw [heads_splice h] at hd ⊢
  have hpos : host.splicePosition t = (host.heads ++
      Element.quantifierHead host.level.pending ++ [Element.subexpression []]).length + t := by
    simp [splicePosition, Nat.add_assoc]
  rw [hpos]
  refine ht.relocate ?_ hd
  rw [Element.groups_append, Element.groups_append, Element.groups_quantifierHead,
    List.append_nil, captureCount, hh.consistent.records.captureCount_eq]
  exact congrArg List.length (List.append_nil _)

/-- A node that was carried along refers to the group that its own group was carried to. -/
theorem CarriedTo.isTarget (h : e.CarriedTo f e') (he : e.Reachable) {p : Nat} {n : Element}
    (hn : e.heads[p]? = some n) :
    ∃ n', e'.heads[f p]? = some n' ∧ ∀ t, n.IsTarget e.heads t → n'.IsTarget e'.heads (f t) := by
  induction h with
  | refl => exact ⟨n, hn, fun _ ht ↦ ht⟩
  | step h hc ha ih =>
    obtain ⟨n', hn', hkept⟩ := ih
    -- no group that the step opens takes the name of one that is there
    have hd := (Reachable.step (h.reachable he) hc ha).consistent.nodup_names
    rw [heads_apply ha] at hd ⊢
    exact ⟨n', Element.getElem?_append_of_eq_some hn', fun t ht ↦ (hkept t ht).append hd⟩
  | splice h hh ha ih =>
    obtain ⟨n', hn', hkept⟩ := ih
    refine ⟨_, ?_, fun t ht ↦ isTarget_splice hh (h.reachable he) ha (hkept t ht)⟩
    rw [Function.comp_apply, getElem?_heads_splice ha, hn']
    rfl

theorem Reachable.exists_isTarget (he : e.Reachable) {p : Nat} {n : Element}
    (hn : e.heads[p]? = some n) (hr : n.isReference = true) : ∃ t < p, n.IsTarget e.heads t := by
  obtain ⟨hlt, rfl⟩ := List.getElem?_eq_some_iff.mp hn
  have hsplit : e.heads = e.heads.take p ++ e.heads[p] :: e.heads.drop (p + 1) := by
    rw [← List.drop_eq_getElem_cons hlt, List.take_append_drop]
  have hd := he.consistent.nodup_names
  have hd' : (Element.groups (e.heads.take p)).reduceOption.Nodup := by
    rw [hsplit, Element.groups_append, List.reduceOption_append, List.nodup_append] at hd
    exact hd.1
  obtain ⟨t, ht, htarget⟩ := (he.consistent.resolves.resolves hsplit).exists_isTarget hr hd'
  refine ⟨t, ?_, ?_⟩
  · exact Nat.lt_of_lt_of_le ht (List.length_take_le _ _)
  · rw [← List.take_append_drop p e.heads] at hd
    have h := htarget.append hd
    rwa [List.take_append_drop] at h

/-- Putting one expression into another, and going on from there in any way, keeps the group of
every reference: a copied reference refers to the copy of its group, and a reference that the
host had before refers to the same group as before. -/
theorem splice_keeps_targets (hh : host.Reachable) (ho : other.Reachable)
    (h : host.splice other options = .ok e') {e'' : Expression} (hf : e'.CarriedTo f e'') :
    e'.heads = host.heads ++ Element.quantifierHead host.level.pending ++
        [Element.subexpression []] ++
        other.heads.map (Element.relocate options host.captureCount) ∧
      (∀ p n, other.heads[p]? = some n → n.isReference = true →
        ∃ t < p, n.IsTarget other.heads t ∧
          ∃ n', e''.heads[f (host.splicePosition p)]? = some n' ∧
            n'.IsTarget e''.heads (f (host.splicePosition t))) ∧
      ∀ p n, host.heads[p]? = some n → n.isReference = true →
        ∃ t < p, n.IsTarget host.heads t ∧
          ∃ n', e''.heads[f p]? = some n' ∧ n'.IsTarget e''.heads (f t) := by
  have he' := hh.splice ho h
  refine ⟨heads_splice h, fun p n hp hr ↦ ?_, fun p n hp hr ↦ ?_⟩
  · obtain ⟨t, hlt, ht⟩ := ho.exists_isTarget hp hr
    have hp' : e'.heads[host.splicePosition p]? =
        some (n.relocate options host.captureCount) := by
      rw [getElem?_heads_splice h, hp]
      rfl
    obtain ⟨n', hn', hkept⟩ := hf.isTarget he' hp'
    exact ⟨t, hlt, ht, n', hn', hkept _ (isTarget_splice hh ho h ht)⟩
  · obtain ⟨t, hlt, ht⟩ := hh.exists_isTarget hp hr
    have hc : host.CarriedTo id e' :=
      .step .refl (fun _ heq ↦ Option.some.inj heq ▸ ho) (c := .splice other options) h
    obtain ⟨n₁, hn₁, hkept₁⟩ := hc.isTarget hh hp
    obtain ⟨n', hn', hkept⟩ := hf.isTarget he' hn₁
    exact ⟨t, hlt, ht, n', hn', hkept _ (hkept₁ t ht)⟩

end

theorem splice_keeps_targets_in_open_group :
    ∃ _ : Property.Engine, ∃ host other e' e'',
      empty.run [.openComposite .capture, .atom .digit,
        .quantify .optional] = .ok host ∧
      empty.run [.openComposite (.namedCapture "a"), .atom .word, .close, .backreference 1] =
        .ok other ∧
      host.splice other { scope := "x" } = .ok e' ∧ e'.apply .close = .ok e'' ∧
      ∃ t < 2, (Element.backreference 1).IsTarget other.heads t ∧
        ∃ n, e''.heads[6]? = some n ∧ n.IsTarget e''.heads (4 + t) := by
  let engine : Property.Engine := default
  have hh := Reachable.empty.run [.openComposite .capture, .atom .digit,
    .quantify .optional] (by simp [Call.spliced?]) rfl
  have ho := Reachable.empty.run [.openComposite (.namedCapture "a"), .atom .word, .close,
    .backreference 1] (by simp [Call.spliced?]) rfl
  refine ⟨engine, _, _, _, _, rfl, rfl, rfl, rfl, ?_⟩
  have h := splice_keeps_targets hh ho (show splice _ _ { scope := "x" } = .ok _ from rfl)
    (.step .refl (c := .close) (by simp [Call.spliced?]) rfl)
  exact h.2.1 2 _ rfl rfl

end Expression

end PatternBuilder
