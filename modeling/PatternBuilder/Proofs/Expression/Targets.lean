import PatternBuilder.Proofs.Expression.WellFormed

namespace PatternBuilder

namespace Element

/-- Whether the group that a node refers to stands at the given position: the group with its
number, or the only group of its name. -/
def IsTarget (ns : List Element) (t : Nat) : Element → Prop
  | backreference i =>
    ∃ g, ns[t]? = some g ∧ g.group? ≠ none ∧ (groups (ns.take t)).length + 1 = i
  | namedBackreference name =>
    ∀ s, (∃ g, ns[s]? = some g ∧ g.group? = some (some name)) ↔ s = t
  | _ => False

variable {ns ms : List Element} {n g g' : Element} {s t i : Nat} {name : String}

theorem mem_groups_of_getElem? (h : ns[t]? = some g) (hg : g.group? = some (some name)) :
    name ∈ (groups ns).reduceOption := by
  rw [List.reduceOption_mem_iff, groups, List.mem_filterMap]
  exact ⟨g, List.mem_of_getElem? h, hg⟩

theorem position_unique (hd : (groups ns).reduceOption.Nodup) (hs : ns[s]? = some g)
    (hg : g.group? = some (some name)) (ht : ns[t]? = some g')
    (hg' : g'.group? = some (some name)) : s = t := by
  induction ns generalizing s t with
  | nil => simp at hs
  | cons n ns ih =>
    rw [groups_cons, List.reduceOption_append, List.nodup_append] at hd
    obtain ⟨-, hd, hne⟩ := hd
    -- the name of the first node is not one of the names behind it
    cases s with
    | zero =>
      cases t with
      | zero => rfl
      | succ t =>
        rw [List.getElem?_cons_zero, Option.some.injEq] at hs
        subst hs
        refine absurd rfl (hne name ?_ name (mem_groups_of_getElem? ht hg'))
        simp [hg, List.reduceOption]
    | succ s =>
      cases t with
      | zero =>
        rw [List.getElem?_cons_zero, Option.some.injEq] at ht
        subst ht
        refine absurd rfl (hne name ?_ name (mem_groups_of_getElem? hs hg))
        simp [hg', List.reduceOption]
      | succ t => exact congrArg (· + 1) (ih hd hs ht)

theorem isTarget_name_iff (hd : (groups ns).reduceOption.Nodup) :
    (namedBackreference name).IsTarget ns t ↔
      ∃ g, ns[t]? = some g ∧ g.group? = some (some name) := by
  constructor
  · exact fun h ↦ (h t).mpr rfl
  · rintro ⟨g, ht, hg⟩ s
    constructor
    · rintro ⟨g', hs, hg'⟩
      exact position_unique hd hs hg' ht hg
    · rintro rfl
      exact ⟨g, ht, hg⟩

theorem getElem?_append_of_eq_some (h : ns[t]? = some g) : (ns ++ ms)[t]? = some g := by
  rw [List.getElem?_append_left (List.getElem?_eq_some_iff.mp h).1, h]

theorem IsTarget.append (h : n.IsTarget ns t) (hd : (groups (ns ++ ms)).reduceOption.Nodup) :
    n.IsTarget (ns ++ ms) t := by
  cases n with
  | backreference i =>
    obtain ⟨g, ht, hg, hi⟩ := h
    have hlt := (List.getElem?_eq_some_iff.mp ht).1
    refine ⟨g, getElem?_append_of_eq_some ht, hg, ?_⟩
    rwa [List.take_append_of_le_length (Nat.le_of_lt hlt)]
  | namedBackreference name =>
    obtain ⟨g, ht, hg⟩ := (h t).mpr rfl
    exact (isTarget_name_iff hd).mpr ⟨g, getElem?_append_of_eq_some ht, hg⟩
  | _ => exact h.elim

/-- A relocated reference refers to the relocated group, if it stands behind as many groups as
its number is moved by. -/
theorem IsTarget.relocate {options : SpliceOptions} {offset : Nat} (h : n.IsTarget ns t)
    (ho : (groups ms).length = offset)
    (hd : (groups (ms ++ ns.map (Element.relocate options offset))).reduceOption.Nodup) :
    (n.relocate options offset).IsTarget (ms ++ ns.map (Element.relocate options offset))
      (ms.length + t) := by
  have hget {g : Element} (hg : ns[t]? = some g) :
      (ms ++ ns.map (Element.relocate options offset))[ms.length + t]? =
        some (g.relocate options offset) := by
    rw [List.getElem?_append_right (Nat.le_add_right _ _), Nat.add_sub_cancel_left,
      List.getElem?_map, hg]
    rfl
  cases n with
  | backreference i =>
    obtain ⟨g, ht, hg, hi⟩ := h
    refine ⟨_, hget ht, ?_, ?_⟩
    · rw [(moved_relocate options offset _).group?]
      simpa using hg
    · rw [List.take_length_add_append, ← List.map_take, groups_append, List.length_append,
        groups_map_relocate, List.length_map, ho]
      omega
  | namedBackreference name =>
    obtain ⟨g, ht, hg⟩ := (h t).mpr rfl
    refine (isTarget_name_iff hd).mpr ⟨_, hget ht, ?_⟩
    rw [(moved_relocate options offset _).group?, hg]
    rfl
  | _ => exact h.elim

theorem exists_group (hi : 0 < i) (hle : i ≤ (groups ns).length) :
    ∃ t g, ns[t]? = some g ∧ g.group? ≠ none ∧ (groups (ns.take t)).length + 1 = i := by
  induction ns generalizing i with
  | nil => exact absurd hle (Nat.not_le_of_lt hi)
  | cons n ns ih =>
    rw [groups_cons, List.length_append] at hle
    by_cases hfirst : n.group? ≠ none ∧ i = 1
    · exact ⟨0, n, rfl, hfirst.1, hfirst.2.symm⟩
    · have hn : n.group?.toList.length < i ∧ i - n.group?.toList.length ≤ (groups ns).length := by
        cases hg : n.group? with
        | none => simp_all
        | some g => simp_all; omega
      obtain ⟨t, g, ht, hg, hi'⟩ := ih (Nat.sub_pos_of_lt hn.1) hn.2
      refine ⟨t + 1, g, ht, hg, ?_⟩
      rw [List.take_succ_cons, groups_cons, List.length_append]
      omega

theorem Resolves.exists_isTarget (h : n.Resolves (groups ns)) (hn : n.isReference = true)
    (hd : (groups ns).reduceOption.Nodup) : ∃ t < ns.length, n.IsTarget ns t := by
  cases n with
  | backreference i =>
    obtain ⟨t, g, ht, hg, hi⟩ := exists_group h.1 h.2
    exact ⟨t, (List.getElem?_eq_some_iff.mp ht).1, g, ht, hg, hi⟩
  | namedBackreference name =>
    obtain ⟨g, hmem, hg⟩ := List.mem_filterMap.mp h
    obtain ⟨t, ht⟩ := List.mem_iff_getElem?.mp hmem
    exact ⟨t, (List.getElem?_eq_some_iff.mp ht).1, (isTarget_name_iff hd).mpr ⟨g, ht, hg⟩⟩
  | _ => cases hn

end Element

end PatternBuilder
