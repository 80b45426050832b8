import Mathlib.Data.List.Basic
import ReportQuery.Proofs.Text.Scan

set_option autoImplicit false
set_option relaxedAutoImplicit false

/-!
What a matcher answers at every place of a text. Where all matches begin with one opener and hold no
other, they do not get in each other's way: the matches at all places are found, and replacing them may be
done place by place.
-/

namespace ReportQuery.Text

variable {α β γ : Type}

/-- What `f` makes of every place of a list: of the element before it, its own, and those behind it. -/
def atPlaces (f : Option γ → γ → List γ → β) (before : Option γ) : List γ → List β
  | [] => []
  | c :: cs => f before c cs :: atPlaces f (some c) cs

section Places

variable {f g : Option γ → γ → List γ → β} {before : Option γ}

theorem length_atPlaces (f : Option γ → γ → List γ → β) (before : Option γ) (cs : List γ) :
    (atPlaces f before cs).length = cs.length := by
  induction cs generalizing before with
  | nil => rfl
  | cons c cs ih => rw [atPlaces, List.length_cons, List.length_cons, ih]

theorem atPlaces_append (f : Option γ → γ → List γ → β) (before : Option γ) (front back : List γ) :
    atPlaces f before (front ++ back) =
      atPlaces (fun left c right => f left c (right ++ back)) before front ++
        atPlaces f (front.getLast?.or before) back := by
  induction front generalizing before with
  | nil => rfl
  | cons c front ih => rw [List.cons_append, atPlaces, atPlaces, ih, getLast?_cons_or, List.cons_append]

theorem atPlaces_congr {cs : List γ}
    (same : ∀ left c right, cs = left ++ c :: right →
      f (left.getLast?.or before) c right = g (left.getLast?.or before) c right) :
    atPlaces f before cs = atPlaces g before cs := by
  induction cs generalizing before with
  | nil => rfl
  | cons c cs ih =>
    rw [atPlaces, atPlaces, show f before c cs = g before c cs from same [] c cs rfl]
    rw [ih fun left d right whole => ?_]
    rw [← getLast?_cons_or c left before]
    exact same (c :: left) d right (by rw [whole, List.cons_append])

theorem getElem?_atPlaces (f : Option γ → γ → List γ → β) (before : Option γ) (front : List γ) (c : γ)
    (back : List γ) :
    (atPlaces f before (front ++ c :: back))[front.length]? =
      some (f (front.getLast?.or before) c back) := by
  rw [atPlaces_append, List.getElem?_append_right (Nat.le_of_eq (length_atPlaces _ _ _)), length_atPlaces,
    Nat.sub_self]
  rfl

theorem exists_cut_at {as : List γ} {a : γ} {i : Nat} (here : as[i]? = some a) :
    ∃ front back, as = front ++ a :: back ∧ front.length = i := by
  obtain ⟨inside, rfl⟩ := List.getElem?_eq_some_iff.mp here
  refine ⟨as.take i, as.drop (i + 1), ?_, by rw [List.length_take]; omega⟩
  rw [← List.drop_eq_getElem_cons inside, List.take_append_drop]

/-- What there is at a place of the answers is the answer for that place. -/
theorem exists_of_getElem?_atPlaces {cs : List γ} {b : β} {i : Nat}
    (here : (atPlaces f before cs)[i]? = some b) :
    ∃ front c back, cs = front ++ c :: back ∧ front.length = i ∧
      f (front.getLast?.or before) c back = b := by
  have inside : i < cs.length := by
    rw [← length_atPlaces f before cs]
    exact (List.getElem?_eq_some_iff.mp here).1
  obtain ⟨front, back, cut, size⟩ := exists_cut_at (List.getElem?_eq_getElem inside)
  refine ⟨front, cs[i], back, cut, size, ?_⟩
  have answer := getElem?_atPlaces f before front cs[i] back
  rw [← cut, size, here] at answer
  exact (Option.some.inj answer).symm

theorem map_atPlaces {δ : Type} (f : Option γ → γ → List γ → β) (g : β → δ) (before : Option γ)
    (cs : List γ) :
    (atPlaces f before cs).map g = atPlaces (fun left c right => g (f left c right)) before cs := by
  induction cs generalizing before with
  | nil => rfl
  | cons c cs ih => rw [atPlaces, List.map_cons, ih, atPlaces]

theorem atPlaces_map {δ : Type} (f : Option δ → δ → List δ → β) (g : γ → δ) (before : Option γ)
    (cs : List γ) :
    atPlaces f (before.map g) (cs.map g) =
      atPlaces (fun left c right => f (left.map g) (g c) (right.map g)) before cs := by
  induction cs generalizing before with
  | nil => rfl
  | cons c cs ih => rw [List.map_cons, atPlaces, atPlaces, ← ih, Option.map_some]

theorem atPlaces_own (f : γ → β) (before : Option γ) (cs : List γ) :
    atPlaces (fun _ c _ => f c) before cs = cs.map f := by
  induction cs generalizing before with
  | nil => rfl
  | cons c cs ih => rw [atPlaces, ih, List.map_cons]

end Places

/-- Every match begins with the opener and holds no other. -/
def OpensWith (opener : Char) (matcher : Matcher α) : Prop :=
  ∀ before cs n a, matcher before cs = some (n, a) →
    ∃ inside rest, cs = opener :: (inside ++ rest) ∧ n = inside.length + 1 ∧ opener ∉ inside

section Opening

variable {opener : Char} {matcher : Matcher α} {before : Option Char}

theorem OpensWith.eq_none {c : Char} {cs : List Char} (opens : OpensWith opener matcher)
    (other : c ≠ opener) : matcher before (c :: cs) = none := by
  rw [Option.eq_none_iff_forall_ne_some]
  rintro ⟨n, a⟩ hit
  obtain ⟨inside, rest, whole, -⟩ := opens before (c :: cs) n a hit
  exact other (List.cons.inj whole).1

/-- What comes of the pieces comes of the places one by one, if a match leaves all that is in it but the
opener as it would be without the match. -/
theorem flatMap_pieces {piece : Piece α → List β} (opens : OpensWith opener matcher)
    (place : Option Char → Char → List Char → List β) (alone : Char → List β)
    (missed : ∀ before c cs, matcher before (c :: cs) = none → place before c cs = alone c)
    (plain : ∀ c, piece (.plain c) = alone c)
    (found : ∀ before inside rest a,
      matcher before (opener :: (inside ++ rest)) = some (inside.length + 1, a) →
        piece (.found (opener :: inside) a) = place before opener (inside ++ rest) ++ inside.flatMap alone)
    (before : Option Char) (cs : List Char) :
    (pieces matcher before cs).flatMap piece = (atPlaces place before cs).flatten := by
  have passed (inside rest : List Char) (before : Option Char) (without : opener ∉ inside) :
      (atPlaces place before (inside ++ rest)).flatten =
        inside.flatMap alone ++ (atPlaces place (inside.getLast?.or before) rest).flatten := by
    rw [atPlaces_append, List.flatten_append]
    congr 1
    induction inside generalizing before with
    | nil => rfl
    | cons c inside ih =>
      obtain ⟨here, there⟩ : opener ≠ c ∧ opener ∉ inside := by simpa using without
      rw [atPlaces, List.flatten_cons, List.flatMap_cons, ih _ there,
        missed before c _ (opens.eq_none (Ne.symm here))]
  fun_induction pieces matcher before cs with
  | case1 => rfl
  | case2 before c cs n a hit ih =>
    obtain ⟨inside, rest, whole, size, without⟩ := opens before (c :: cs) (n + 1) a hit
    obtain ⟨rfl, rfl⟩ := List.cons.inj whole
    obtain rfl : n = inside.length := by omega
    have source : (c :: (inside ++ rest)).take (inside.length + 1) = c :: inside := by simp
    rw [source, List.drop_left] at ih
    rw [source, List.drop_left, List.flatMap_cons, ih, found before inside rest a hit, atPlaces,
      List.flatten_cons, passed inside rest _ without, List.append_assoc, List.getLast?_cons]
    cases inside.getLast? <;> simp
  | case3 before c cs miss ih =>
    have none_here : matcher before (c :: cs) = none := by
      rw [Option.eq_none_iff_forall_ne_some]
      rintro ⟨n, a⟩ hit
      obtain ⟨inside, rest, whole, size, without⟩ := opens before (c :: cs) n a hit
      exact miss inside.length a (by rw [hit, size])
    rw [List.flatMap_cons, ih, plain, atPlaces, List.flatten_cons, missed before c cs none_here]

theorem findAll_eq_atPlaces (opens : OpensWith opener matcher) (cs : List Char) :
    findAll matcher cs =
      (atPlaces (fun before c cs => (matcher before (c :: cs)).map Prod.snd) none cs).filterMap id := by
  have listed (ps : List (Piece α)) : ps.filterMap (·.value?) = ps.flatMap (·.value?.toList) := by
    rw [List.filterMap_eq_flatMap_toList]
  rw [findAll, listed, flatMap_pieces opens
    (fun before c cs => ((matcher before (c :: cs)).map Prod.snd).toList) fun _ => []]
  · rw [List.filterMap_eq_flatMap_toList, List.flatMap_def, map_atPlaces]
    rfl
  · intro before c cs missed
    rw [missed]
    rfl
  · exact fun _ => rfl
  · intro before inside rest a hit
    rw [hit]
    simp [Piece.value?]

theorem replaceAll_eq_atPlaces {f : List Char → α → List Char} (opens : OpensWith opener matcher)
    (mark : List Char)
    (marks : ∀ before inside rest a,
      matcher before (opener :: (inside ++ rest)) = some (inside.length + 1, a) →
        f (opener :: inside) a = mark ++ inside) (cs : List Char) :
    replaceAll matcher f cs =
      (atPlaces (fun before c cs => if (matcher before (c :: cs)).isSome then mark else [c]) none
        cs).flatten := by
  refine flatMap_pieces opens _ (fun c => [c]) ?_ (fun _ => rfl) ?_ none cs
  · intro before c cs missed
    rw [missed]
    rfl
  · intro before inside rest a hit
    rw [hit, Piece.replaced, marks before inside rest a hit, List.flatMap_singleton']
    rfl

end Opening

end ReportQuery.Text
