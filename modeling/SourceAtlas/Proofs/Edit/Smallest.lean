import SourceAtlas.Proofs.Edit.Points

/-!
# The smallest edit between two buffers

In repetitive text many edits lead from one buffer to another. The edit that is taken begins where
the buffers begin to differ, and leaves as much as it can of what remains at the end. No other edit
replaces fewer bytes: where a longer end could be shared, it would reach back over bytes that are
shared in front already, and then one of the buffers is used up.

* `length_le_commonPrefix`: two lists begin with nothing longer than their common prefix;
* `Edit.Separates`: an edit leads from one buffer to another;
* `Edit.tailLength`, `Edit.Separates.kept_le`: no edit leaves more bytes as they are;
* **`Edit.between_smallest`**: the edit between two buffers is the smallest one.
-/

namespace SourceAtlas

theorem length_le_commonPrefix {α : Type} [DecidableEq α] {l as bs : List α} (has : l <+: as)
    (hbs : l <+: bs) : l.length ≤ commonPrefix as bs := by
  induction l generalizing as bs with
  | nil => exact Nat.zero_le _
  | cons a l ih =>
    obtain ⟨as, rfl⟩ := has
    obtain ⟨bs, rfl⟩ := hbs
    rw [List.cons_append, List.cons_append, commonPrefix, if_pos rfl, List.length_cons]
    exact Nat.succ_le_succ (ih (List.prefix_append l as) (List.prefix_append l bs))

namespace Edit

variable {old new : Bytes} {e : Edit}

/-! ## Edits that lead from one buffer to another -/

/-- An edit lies in both buffers, and what they have before it and after it is the same. -/
structure Separates (e : Edit) (old new : Bytes) : Prop where
  start_le_oldEnd : e.start ≤ e.oldEnd
  oldEnd_le : e.oldEnd ≤ old.length
  start_le_newEnd : e.start ≤ e.newEnd
  newEnd_le : e.newEnd ≤ new.length
  before : old.take e.start = new.take e.start
  after : old.drop e.oldEnd = new.drop e.newEnd

theorem Separates.splice (h : e.Separates old new) :
    old.take e.start ++ (new.drop e.start).take (e.newEnd - e.start) ++ old.drop e.oldEnd = new := by
  have hend : e.start + (e.newEnd - e.start) = e.newEnd := Nat.add_sub_cancel' h.start_le_newEnd
  rw [h.before, h.after, ← List.take_add, hend, List.take_append_drop]

theorem Separates.length_after (h : e.Separates old new) :
    old.length - e.oldEnd = new.length - e.newEnd := by
  have hlength := congrArg List.length h.after
  rwa [List.length_drop, List.length_drop] at hlength

/-- No edit begins after the buffers begin to differ. -/
theorem Separates.start_le (h : e.Separates old new) : e.start ≤ commonPrefix old new := by
  have hold : old.take e.start <+: old := List.take_prefix _ _
  have hnew : old.take e.start <+: new := by
    rw [h.before]
    exact List.take_prefix _ _
  have hle := length_le_commonPrefix hold hnew
  have hstart : e.start ≤ old.length := Nat.le_trans h.start_le_oldEnd h.oldEnd_le
  rwa [List.length_take, Nat.min_eq_left hstart] at hle

/-! ## What edits leave as it is -/

/-- How many bytes two buffers share at the end, without so many at the start. -/
def tailLength (old new : Bytes) (start : Nat) : Nat :=
  commonPrefix (old.drop start).reverse (new.drop start).reverse

/-- An end that both buffers have counts, if it does not reach back into the bytes at the start. -/
theorem length_le_tailLength {tail : Bytes} (start : Nat) (hold : tail <:+ old)
    (hnew : tail <:+ new) (hstart : start + tail.length ≤ old.length)
    (hstart' : start + tail.length ≤ new.length) : tail.length ≤ tailLength old new start := by
  have hrest : ∀ {buffer : Bytes}, tail <:+ buffer → start + tail.length ≤ buffer.length →
      tail.reverse <+: (buffer.drop start).reverse := by
    intro buffer hbuffer hlength
    rw [List.reverse_prefix]
    refine List.suffix_of_suffix_length_le hbuffer (List.drop_suffix _ _) ?_
    rw [List.length_drop]
    omega
  have hle := length_le_commonPrefix (hrest hold hstart) (hrest hnew hstart')
  rwa [List.length_reverse] at hle

theorem Separates.le_tailLength (h : e.Separates old new) (start n : Nat)
    (hn : n ≤ old.length - e.oldEnd) (hold : start + n ≤ old.length)
    (hnew : start + n ≤ new.length) : n ≤ tailLength old new start := by
  have hlast : (old.drop e.oldEnd).drop (old.length - e.oldEnd - n) <:+ old.drop e.oldEnd :=
    List.drop_suffix _ _
  have hsuffix : old.drop e.oldEnd <:+ new := by
    rw [h.after]
    exact List.drop_suffix _ _
  have hlength : ((old.drop e.oldEnd).drop (old.length - e.oldEnd - n)).length = n := by
    rw [List.length_drop, List.length_drop]
    omega
  have hle := length_le_tailLength start (hlast.trans (List.drop_suffix _ _))
    (hlast.trans hsuffix) (by rwa [hlength]) (by rwa [hlength])
  rwa [hlength] at hle

/-- **No edit leaves more bytes as they are** than the buffers share at the start and then at the
end. -/
theorem Separates.kept_le (h : e.Separates old new) : e.start + (old.length - e.oldEnd) ≤
    commonPrefix old new + tailLength old new (commonPrefix old new) := by
  have hstart := h.start_le
  have hlength := h.length_after
  have hold : e.start ≤ e.oldEnd ∧ e.oldEnd ≤ old.length := ⟨h.start_le_oldEnd, h.oldEnd_le⟩
  have hnew : e.start ≤ e.newEnd ∧ e.newEnd ≤ new.length := ⟨h.start_le_newEnd, h.newEnd_le⟩
  have hshared : commonPrefix old new ≤ min old.length new.length := by
    obtain ⟨s, as, bs, has, hbs, hs⟩ := exists_commonPrefix old new
    have holds := congrArg List.length has
    have hnews := congrArg List.length hbs
    rw [List.length_append] at holds hnews
    omega
  generalize commonPrefix old new = p at hstart hshared ⊢
  by_cases hfits : p + (old.length - e.oldEnd) ≤ min old.length new.length
  · have htail := h.le_tailLength p _ (Nat.le_refl _) (by omega) (by omega)
    omega
  · -- the common prefix and the tail use up the shorter buffer, and no edit can leave more
    have htail := h.le_tailLength p (min old.length new.length - p) (by omega) (by omega)
      (by omega)
    omega

/-! ## The edit between two buffers -/

theorem between_eq_none_iff : between old new = none ↔ old = new := by
  unfold between
  split_ifs with h <;> simp [h]

theorem of_between_eq_some (h : between old new = some e) :
    e.start = commonPrefix old new ∧
    e.oldEnd = old.length - tailLength old new (commonPrefix old new) ∧
    e.newEnd = new.length - tailLength old new (commonPrefix old new) := by
  unfold between at h
  split_ifs at h
  cases h
  exact ⟨rfl, rfl, rfl⟩

theorem separates_between (h : between old new = some e) : e.Separates old new := by
  have hne : old ≠ new := fun heq => by
    rw [between_eq_none_iff.mpr heq] at h
    cases h
  obtain ⟨before, gone, added, after, rfl, rfl, hedit⟩ := exists_parts hne
  rw [hedit] at h
  cases h
  refine ⟨by simp, by simp, by simp, by simp, ?_, ?_⟩
  · rw [List.append_assoc, List.append_assoc, List.take_left, List.take_left]
  · rw [List.drop_left, List.drop_left]

/-- **The edit between two buffers is the smallest one.** There is none if and only if the buffers
are equal. It leads from the old buffer to the new one; it begins after all bytes that they share at
the start; and every other edit that leads from the one to the other replaces at least as many bytes
by at least as many. So it begins at the end of the old buffer if and only if bytes were appended. -/
theorem between_smallest (old new : Bytes) :
    (between old new = none ↔ old = new) ∧
    ∀ e, between old new = some e →
      (e.start ≤ e.oldEnd ∧ e.oldEnd ≤ old.length ∧ e.start ≤ e.newEnd ∧ e.newEnd ≤ new.length) ∧
      new = old.take e.start ++ (new.drop e.start).take (e.newEnd - e.start) ++
        old.drop e.oldEnd ∧
      (old.take e.start = new.take e.start ∧ ∀ shared, shared <+: old → shared <+: new →
        shared.length ≤ e.start) ∧
      (∀ other : Edit, other.Separates old new →
        e.oldEnd - e.start ≤ other.oldEnd - other.start ∧
        e.newEnd - e.start ≤ other.newEnd - other.start) ∧
      (e.start = old.length ↔ old <+: new ∧ old ≠ new) := by
  refine ⟨between_eq_none_iff, fun e he => ?_⟩
  have hsep := separates_between he
  obtain ⟨hstart, hold, hnew⟩ := of_between_eq_some he
  have hlongest : ∀ shared, shared <+: old → shared <+: new → shared.length ≤ e.start := by
    intro shared hshared hshared'
    rw [hstart]
    exact length_le_commonPrefix hshared hshared'
  refine ⟨⟨hsep.start_le_oldEnd, hsep.oldEnd_le, hsep.start_le_newEnd, hsep.newEnd_le⟩,
    hsep.splice.symm, ⟨hsep.before, hlongest⟩, fun other hother => ?_, ?_⟩
  · have hkept := hother.kept_le
    have hlength := hother.length_after
    have hbound := hother.oldEnd_le
    have hbound' := hother.newEnd_le
    omega
  · constructor
    · intro hend
      have hall := hsep.before
      rw [hend, List.take_length] at hall
      refine ⟨hall ▸ List.take_prefix _ _, fun heq => ?_⟩
      rw [between_eq_none_iff.mpr heq] at he
      cases he
    · rintro ⟨happended, -⟩
      have hle := hlongest old List.prefix_rfl happended
      have hbound := Nat.le_trans hsep.start_le_oldEnd hsep.oldEnd_le
      omega

/-- Two bytes, twice. -/
def twice : Bytes := [97, 10, 97, 10]

/-- The two bytes once more. -/
def thrice : Bytes := [97, 10, 97, 10, 97, 10]

theorem between_smallest_thrice :
    between twice thrice = some ⟨4, 4, 6⟩ ∧ Separates ⟨1, 1, 3⟩ twice thrice ∧
    (4 - 4 ≤ 1 - 1 ∧ 6 - 4 ≤ 3 - 1) ∧ twice <+: thrice ∧
    thrice = twice.take 4 ++ (thrice.drop 4).take 2 ++ twice.drop 4 := by
  have hedit : between twice thrice = some ⟨4, 4, 6⟩ := by decide
  have hother : Separates ⟨1, 1, 3⟩ twice thrice :=
    ⟨by decide, by decide, by decide, by decide, by decide, by decide⟩
  obtain ⟨-, hsmallest⟩ := between_smallest twice thrice
  obtain ⟨-, hsplice, -, hleast, happended⟩ := hsmallest _ hedit
  exact ⟨hedit, hother, hleast _ hother, (happended.mp rfl).1, hsplice⟩

end Edit

end SourceAtlas
