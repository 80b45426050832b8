import Mathlib.Data.List.Forall2
import ReportQuery.Text.Order

set_option autoImplicit false
set_option relaxedAutoImplicit false

/-!
Dropping repeats keeps only elements of the list, the first of every kind. Sorting keeps all elements
and puts their keys in order.
-/

namespace ReportQuery.Text

variable {α β : Type} {as bs seen : List α} {a : α}

/-- What stands in one of two lists has its partner in the other. -/
theorem exists_of_mem_forall₂ {R : α → β → Prop} {bs : List β} (each : List.Forall₂ R as bs)
    (member : a ∈ as) : ∃ b ∈ bs, R a b := by
  induction each with
  | nil => cases member
  | @cons first b as bs here _ ih =>
    rcases List.mem_cons.mp member with rfl | later
    · exact ⟨b, List.mem_cons_self, here⟩
    · obtain ⟨b', among, found⟩ := ih later
      exact ⟨b', List.mem_cons_of_mem b among, found⟩

theorem mem_of_mem_distinctBy [BEq β] {key : α → β} (h : a ∈ distinctBy key as) : a ∈ as := by
  have general : ∀ seen : List α, a ∈ as.foldl (addNewBy key) seen → a ∈ seen ∨ a ∈ as := by
    clear h
    induction as with
    | nil => exact fun seen member => .inl member
    | cons b rest ih =>
      intro seen member
      have step : a ∈ addNewBy key seen b → a ∈ seen ∨ a = b := by
        unfold addNewBy
        split
        · exact .inl
        · simp
      rcases ih (addNewBy key seen b) member with early | late
      · rcases step early with early | rfl
        · exact .inl early
        · exact .inr List.mem_cons_self
      · exact .inr (List.mem_cons_of_mem b late)
  simpa using general [] h

/-- Every key is kept, and none but these. -/
theorem mem_map_distinctBy [BEq β] [LawfulBEq β] {key : α → β} {k : β} :
    k ∈ (distinctBy key as).map key ↔ k ∈ as.map key := by
  have general : ∀ seen : List α,
      k ∈ (as.foldl (addNewBy key) seen).map key ↔ k ∈ seen.map key ∨ k ∈ as.map key := by
    induction as with
    | nil => simp
    | cons b rest ih =>
      intro seen
      have step : k ∈ (addNewBy key seen b).map key ↔ k ∈ seen.map key ∨ k = key b := by
        unfold addNewBy
        split
        · rename_i there
          obtain ⟨c, member, same⟩ := List.any_eq_true.mp there
          have known : key b ∈ seen.map key := by
            rw [← eq_of_beq same]
            exact List.mem_map_of_mem member
          constructor
          · exact .inl
          · rintro (early | rfl)
            · exact early
            · exact known
        · simp
      rw [List.foldl_cons, ih, step, List.map_cons, List.mem_cons, or_assoc]
  rw [distinctBy, general]
  simp

/-- No two elements that are kept have the same key. -/
theorem nodup_map_distinctBy [BEq β] [LawfulBEq β] (key : α → β) (as : List α) :
    ((distinctBy key as).map key).Nodup := by
  have general : ∀ seen : List α, (seen.map key).Nodup →
      ((as.foldl (addNewBy key) seen).map key).Nodup := by
    induction as with
    | nil => exact fun _ apart => apart
    | cons b rest ih =>
      intro seen apart
      refine ih _ ?_
      unfold addNewBy
      split
      · exact apart
      · rename_i fresh
        have fresh : ∀ a ∈ seen, key a ≠ key b := by simpa using fresh
        rw [List.map_append, List.nodup_append]
        refine ⟨apart, by simp, fun k early other late => ?_⟩
        obtain ⟨a, member, rfl⟩ := List.mem_map.mp early
        rw [List.mem_singleton.mp late]
        exact fresh a member
  exact general [] List.nodup_nil

/-- Where the key tells the elements apart, none is dropped but repeats. -/
theorem mem_distinctBy_iff [BEq β] [LawfulBEq β] {key : α → β}
    (tells : ∀ b ∈ as, ∀ c ∈ as, key b = key c → b = c) : a ∈ distinctBy key as ↔ a ∈ as := by
  refine ⟨mem_of_mem_distinctBy, fun member => ?_⟩
  have kept : key a ∈ (distinctBy key as).map key :=
    mem_map_distinctBy.mpr (List.mem_map_of_mem member)
  obtain ⟨b, among, same⟩ := List.mem_map.mp kept
  rw [← tells b (mem_of_mem_distinctBy among) a member same]
  exact among

/-- No element is kept twice. -/
theorem nodup_distinctBy [BEq β] [LawfulBEq β] (key : α → β) (as : List α) :
    (distinctBy key as).Nodup :=
  List.Pairwise.of_map key (fun _ _ differ same => differ (congrArg key same))
    (nodup_map_distinctBy key as)

/-- What is kept depends on the elements alone, where the key tells them apart. -/
theorem distinctBy_perm_of_mem_iff [BEq β] [LawfulBEq β] {key : α → β}
    (tells : ∀ b ∈ as, ∀ c ∈ as, key b = key c → b = c) (same : ∀ a, a ∈ as ↔ a ∈ bs) :
    (distinctBy key as).Perm (distinctBy key bs) := by
  have tells' : ∀ b ∈ bs, ∀ c ∈ bs, key b = key c → b = c := fun b here c there =>
    tells b ((same b).mpr here) c ((same c).mpr there)
  refine (List.perm_ext_iff_of_nodup (nodup_distinctBy key as) (nodup_distinctBy key bs)).mpr
    fun a => ?_
  rw [mem_distinctBy_iff tells, mem_distinctBy_iff tells', same]

theorem distinctBy_perm [BEq β] [LawfulBEq β] {key : α → β}
    (tells : ∀ b ∈ as, ∀ c ∈ as, key b = key c → b = c) (perm : as.Perm bs) :
    (distinctBy key as).Perm (distinctBy key bs) :=
  distinctBy_perm_of_mem_iff tells fun _ => perm.mem_iff

/-- What is kept already stays in front. -/
theorem prefix_foldl_addNewBy [BEq β] (key : α → β) (seen as : List α) :
    seen <+: as.foldl (addNewBy key) seen := by
  induction as generalizing seen with
  | nil => exact List.prefix_rfl
  | cons b rest ih =>
    refine List.IsPrefix.trans ?_ (ih (addNewBy key seen b))
    unfold addNewBy
    split
    · exact List.prefix_rfl
    · exact List.prefix_append seen [b]

/-- The first element is always kept, as the first one. -/
theorem head?_distinctBy [BEq β] (key : α → β) (as : List α) :
    (distinctBy key as).head? = as.head? := by
  cases as with
  | nil => rfl
  | cons b rest =>
    obtain ⟨behind, whole⟩ := prefix_foldl_addNewBy key [b] rest
    rw [distinctBy, List.foldl_cons, addNewBy, List.any_nil, if_neg (by decide), List.nil_append,
      ← whole]
    rfl

/-- Where no two elements have the same key, one is found by its key exactly if it is there. -/
theorem find?_key_eq_some_iff [DecidableEq β] {key : α → β} {k : β} (apart : (as.map key).Nodup) :
    (as.find? fun b => key b = k) = some a ↔ a ∈ as ∧ key a = k := by
  constructor
  · intro found
    exact ⟨List.mem_of_find?_eq_some found, by simpa using List.find?_some found⟩
  · rintro ⟨member, rfl⟩
    induction as with
    | nil => cases member
    | cons b rest ih =>
      obtain ⟨fresh, apart⟩ := List.nodup_cons.mp apart
      rcases List.mem_cons.mp member with rfl | later
      · exact List.find?_cons_of_pos (by simp)
      · have differ : key b ≠ key a := fun same => fresh (same ▸ List.mem_map_of_mem later)
        rw [List.find?_cons_of_neg (by simpa using differ), ih apart later]

/-- Looking for a key does not depend on the order of elements with different keys. -/
theorem find?_key_perm [DecidableEq β] {key : α → β} {k : β} (apart : (as.map key).Nodup)
    (perm : as.Perm bs) : (as.find? fun b => key b = k) = bs.find? fun b => key b = k := by
  ext a
  rw [find?_key_eq_some_iff apart, find?_key_eq_some_iff ((perm.map key).nodup_iff.mp apart),
    perm.mem_iff]

/-- The element that is kept for a key is the first one. -/
theorem find?_distinctBy [DecidableEq β] (key : α → β) (as : List α) (k : β) :
    ((distinctBy key as).find? fun b => key b = k) = as.find? fun b => key b = k := by
  have general : ∀ seen : List α, ((as.foldl (addNewBy key) seen).find? fun b => key b = k) =
      (seen ++ as).find? fun b => key b = k := by
    induction as with
    | nil => simp
    | cons b rest ih =>
      intro seen
      rw [List.foldl_cons, ih, addNewBy]
      split
      · rename_i there
        obtain ⟨c, member, same⟩ := List.any_eq_true.mp there
        -- an element with the key of `b` was kept before
        simp only [List.find?_append]
        cases found : seen.find? fun b => key b = k with
        | some d => rfl
        | none =>
          have other : key b ≠ k := by
            rintro rfl
            exact List.find?_eq_none.mp found c member (by simpa using same)
          rw [List.find?_cons_of_neg (by simpa using other)]
      · rw [List.append_assoc, List.singleton_append]
  rw [distinctBy, general, List.nil_append]

theorem mem_addNew [BEq α] [LawfulBEq α] {b : α} : a ∈ addNew seen b ↔ a ∈ seen ∨ a = b := by
  unfold addNew
  split
  · rename_i there
    have there : b ∈ seen := by simpa using there
    constructor
    · exact .inl
    · rintro (early | rfl)
      · exact early
      · exact there
  · simp

theorem prefix_addNew [BEq α] (seen : List α) (a : α) : seen <+: addNew seen a := by
  unfold addNew
  split
  · exact List.prefix_rfl
  · exact List.prefix_append seen [a]

theorem mem_distinct [BEq α] [LawfulBEq α] : a ∈ distinct as ↔ a ∈ as := by
  have general : ∀ seen : List α, a ∈ as.foldl addNew seen ↔ a ∈ seen ∨ a ∈ as := by
    induction as with
    | nil => simp
    | cons b rest ih =>
      intro seen
      rw [List.foldl_cons, ih, mem_addNew, List.mem_cons, or_assoc]
  rw [distinct, general]
  simp

theorem nodup_distinct [BEq α] [LawfulBEq α] (as : List α) : (distinct as).Nodup := by
  have general : ∀ seen : List α, seen.Nodup → (as.foldl addNew seen).Nodup := by
    induction as with
    | nil => exact fun _ apart => apart
    | cons b rest ih =>
      intro seen apart
      refine ih _ ?_
      unfold addNew
      split
      · exact apart
      · rename_i fresh
        have fresh : b ∉ seen := by simpa using fresh
        refine List.nodup_append.mpr ⟨apart, by simp, fun a early other late same => ?_⟩
        rw [same, List.mem_singleton.mp late] at early
        exact fresh early
  exact general [] List.nodup_nil

theorem distinct_eq_self [BEq α] [LawfulBEq α] (apart : as.Nodup) : distinct as = as := by
  have general (seen : List α) (apart : (seen ++ as).Nodup) : as.foldl addNew seen = seen ++ as := by
    induction as generalizing seen with
    | nil => rw [List.foldl_nil, List.append_nil]
    | cons a rest ih =>
      have fresh : a ∉ seen := fun early => (List.nodup_append.mp apart).2.2 a early a (by simp) rfl
      rw [List.append_cons] at apart
      rw [List.foldl_cons, addNew, if_neg (by simpa using fresh), ih (List.nodup_append.mp apart).2.1 _ apart,
        ← List.append_cons]
  exact general [] apart

/-- What is kept of a front stays in front. -/
theorem prefix_distinct [BEq α] (as bs : List α) : distinct as <+: distinct (as ++ bs) := by
  have general (seen : List α) : seen <+: bs.foldl addNew seen := by
    induction bs generalizing seen with
    | nil => exact List.prefix_rfl
    | cons b rest ih => exact (prefix_addNew seen b).trans (ih (addNew seen b))
  rw [distinct, distinct, List.foldl_append]
  exact general _

theorem idxOf_lt_of_prefix [BEq α] [LawfulBEq α] {b : α} {front whole : List α} (start : front <+: whole)
    (member : a ∈ front) (other : b ∉ front) : whole.idxOf a < whole.idxOf b := by
  obtain ⟨back, rfl⟩ := start
  have inside := List.idxOf_lt_length_of_mem member
  rw [List.idxOf_append, if_pos member, List.idxOf_append, if_neg other]
  omega

/-- Without repeats one element comes before another exactly if it stands before all occurrences of it. -/
theorem idxOf_distinct_lt_iff [BEq α] [LawfulBEq α] {b : α} (member : a ∈ as) :
    (distinct as).idxOf a < (distinct as).idxOf b ↔
      ∀ front back, as = front ++ b :: back → a ∈ front := by
  constructor
  · rintro earlier front back rfl
    by_contra late
    have start : distinct (front ++ [b]) <+: distinct (front ++ b :: back) := by
      rw [List.append_cons front b back]
      exact prefix_distinct _ _
    by_cases same : a = b
    · rw [same] at earlier
      exact Nat.lt_irrefl _ earlier
    · have behind := idxOf_lt_of_prefix (a := b) (b := a) start (mem_distinct.mpr (by simp))
        fun early => by simp [mem_distinct, late, same] at early
      omega
  · intro before
    by_cases there : b ∈ as
    · obtain ⟨front, back, rfl, first⟩ := List.eq_append_cons_of_mem there
      exact idxOf_lt_of_prefix (prefix_distinct front _) (mem_distinct.mpr (before front back rfl))
        fun early => first (mem_distinct.mp early)
    · exact idxOf_lt_of_prefix List.prefix_rfl (mem_distinct.mpr member)
        fun early => there (mem_distinct.mp early)

/-- Dropping repeats goes along with a change of the elements that keeps them apart. -/
theorem distinct_map [BEq α] [LawfulBEq α] [BEq β] [LawfulBEq β] {f : α → β}
    (injective : ∀ a b, f a = f b → a = b) (as : List α) :
    distinct (as.map f) = (distinct as).map f := by
  have general : ∀ seen : List α,
      (as.map f).foldl addNew (seen.map f) = (as.foldl addNew seen).map f := by
    induction as with
    | nil => exact fun seen => rfl
    | cons b rest ih =>
      intro seen
      have step : addNew (seen.map f) (f b) = (addNew seen b).map f := by
        have mem_iff : f b ∈ seen.map f ↔ b ∈ seen := by
          rw [List.mem_map]
          constructor
          · rintro ⟨c, member, same⟩
            exact injective c b same ▸ member
          · exact fun member => ⟨b, member, rfl⟩
        simp only [addNew, List.contains_iff_mem, mem_iff]
        split
        · rfl
        · rw [List.map_append]
          rfl
      rw [List.map_cons, List.foldl_cons, step, ih, List.foldl_cons]
  exact general []

theorem sortBy_perm (key : α → String) (as : List α) : (sortBy key as).Perm as :=
  List.mergeSort_perm as _

theorem pairwise_sortBy (key : α → String) (as : List α) :
    ((sortBy key as).map key).Pairwise (· ≤ ·) := by
  have sorted : (sortBy key as).Pairwise fun a b => decide (key a ≤ key b) = true :=
    List.pairwise_mergeSort (fun a b c first second => by
      rw [decide_eq_true_eq] at first second ⊢
      exact String.le_trans first second)
    (fun a b => by
      rw [Bool.or_eq_true, decide_eq_true_eq, decide_eq_true_eq]
      exact String.le_total (key a) (key b)) as
  rw [List.pairwise_map]
  exact sorted.imp of_decide_eq_true

/-- Sorting changes nothing where the keys are in order. -/
theorem sortBy_eq_self {key : α → String} (sorted : (as.map key).Pairwise (· ≤ ·)) :
    sortBy key as = as :=
  List.mergeSort_of_pairwise ((List.pairwise_map.mp sorted).imp decide_eq_true)

/-- Sorting forgets the order of elements that the key tells apart. -/
theorem sortBy_eq_of_perm {key : α → String}
    (tells : ∀ b ∈ as, ∀ c ∈ as, key b = key c → b = c) (perm : as.Perm bs) :
    sortBy key as = sortBy key bs := by
  refine List.Perm.eq_of_pairwise ?_ (List.pairwise_map.mp (pairwise_sortBy key as))
    (List.pairwise_map.mp (pairwise_sortBy key bs))
    ((sortBy_perm key as).trans (perm.trans (sortBy_perm key bs).symm))
  intro b c here there below above
  have member : c ∈ as := perm.mem_iff.mpr ((sortBy_perm key bs).mem_iff.mp there)
  exact tells b ((sortBy_perm key as).mem_iff.mp here) c member (String.le_antisymm below above)

/-- Sorted without repeats, a list shows its elements and nothing else, where the key tells them
apart. -/
theorem sortBy_distinctBy_eq {key : α → String}
    (tells : ∀ b ∈ as, ∀ c ∈ as, key b = key c → b = c) (same : ∀ a, a ∈ as ↔ a ∈ bs) :
    sortBy key (distinctBy key as) = sortBy key (distinctBy key bs) :=
  sortBy_eq_of_perm
    (fun b here c there => tells b (mem_of_mem_distinctBy here) c (mem_of_mem_distinctBy there))
    (distinctBy_perm_of_mem_iff tells same)

/-- Elements with equal keys keep their order. -/
theorem filter_sortBy {key : α → String} {p : α → Bool}
    (same : ∀ a b, p a → p b → key a = key b) : (sortBy key as).filter p = as.filter p := by
  have alike : (as.filter p).Pairwise fun a b => decide (key a ≤ key b) = true := by
    refine List.pairwise_of_forall_mem_list fun a first b second => ?_
    rw [same a b (List.mem_filter.mp first).2 (List.mem_filter.mp second).2]
    simp
  have within : (as.filter p).Sublist (sortBy key as) :=
    List.sublist_mergeSort
      (fun a b c first second => by
        rw [decide_eq_true_eq] at first second ⊢
        exact String.le_trans first second)
      (fun a b => by
        rw [Bool.or_eq_true, decide_eq_true_eq, decide_eq_true_eq]
        exact String.le_total (key a) (key b)) alike List.filter_sublist
  have kept := within.filter p
  rw [List.filter_filter] at kept
  simp only [Bool.and_self] at kept
  exact (kept.eq_of_length ((sortBy_perm key as).filter p).length_eq.symm).symm

/-- The keys of elements without repeats, sorted by them, increase strictly. -/
theorem pairwise_sortBy_distinctBy (key : α → String) (as : List α) :
    ((sortBy key (distinctBy key as)).map key).Pairwise (· < ·) := by
  have apart : ((sortBy key (distinctBy key as)).map key).Nodup :=
    ((sortBy_perm key _).map key).nodup_iff.mpr (nodup_map_distinctBy key as)
  refine ((pairwise_sortBy key _).and apart).imp fun both => ?_
  exact String.not_le.mp fun ge => both.2 (String.le_antisymm both.1 ge)

end ReportQuery.Text
