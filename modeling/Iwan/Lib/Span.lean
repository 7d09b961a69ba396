import Mathlib

/- Lists cut where a predicate or a step first fails. -/
namespace Span

variable {α : Type} {p : α → Bool} {front rest : List α}

def Stops (p : α → Bool) (rest : List α) : Prop := ∀ x, rest.head? = some x → p x = false

theorem Stops.cons {x : α} (rest : List α) (fails : p x = false) : Stops p (x :: rest) := by
  intro y same
  cases same
  exact fails

theorem Stops.takeWhile (stops : Stops p rest) : rest.takeWhile p = [] := by
  cases rest with
  | nil => rfl
  | cons x rest => rw [List.takeWhile_cons, stops x rfl]; rfl

theorem Stops.dropWhile (stops : Stops p rest) : rest.dropWhile p = rest := by
  cases rest with
  | nil => rfl
  | cons x rest => rw [List.dropWhile_cons, stops x rfl]; rfl

theorem takeWhile_append (passes : ∀ x ∈ front, p x = true) (stops : Stops p rest) :
    (front ++ rest).takeWhile p = front := by
  rw [List.takeWhile_append_of_pos passes, stops.takeWhile, List.append_nil]

theorem dropWhile_append (passes : ∀ x ∈ front, p x = true) (stops : Stops p rest) :
    (front ++ rest).dropWhile p = rest := by
  rw [List.dropWhile_append_of_pos passes, stops.dropWhile]

theorem stops_dropWhile (p : α → Bool) (s : List α) : Stops p (s.dropWhile p) := by
  intro x head
  have fails := List.head?_dropWhile_not p s
  rw [head] at fails
  simpa using fails

theorem getLast?_suffix {part whole : List α} {c : α} (ends : whole.getLast? = some c)
    (suffix : part <:+ whole) (ne : part ≠ []) : part.getLast? = some c := by
  obtain ⟨front, rfl⟩ := suffix
  rwa [List.getLast?_append_of_ne_nil _ ne] at ends

theorem foldlM_eq_none {α β : Type} {f : β → α → Option β} {l : List α} {b : β} :
    l.foldlM f b = none ↔ ∃ before a after v, l = before ++ a :: after ∧
      before.foldlM f b = some v ∧ f v a = none := by
  induction l generalizing b with
  | nil => simp
  | cons x l ih =>
    rw [List.foldlM_cons, Option.bind_eq_bind, Option.bind_eq_none_iff]
    constructor
    · intro stops
      cases first : f b x with
      | none => exact ⟨[], x, l, b, rfl, rfl, first⟩
      | some v =>
        obtain ⟨before, a, after, w, shape, walked, last⟩ := ih.mp (stops v first)
        refine ⟨x :: before, a, after, w, by rw [shape]; rfl, ?_, last⟩
        rw [List.foldlM_cons, first]
        exact walked
    · rintro ⟨before, a, after, w, shape, walked, last⟩ v first
      cases before with
      | nil =>
        obtain ⟨rfl, rfl⟩ := List.cons.inj shape
        cases walked
        rw [last] at first
        cases first
      | cons y before =>
        obtain ⟨rfl, rfl⟩ := List.cons.inj shape
        rw [List.foldlM_cons, first] at walked
        exact ih.mpr ⟨before, a, after, w, rfl, walked, last⟩

theorem not_mem_takeWhile_ne [DecidableEq α] (c : α) (s : List α) : c ∉ s.takeWhile (· ≠ c) := by
  intro member
  have passed := List.mem_takeWhile_imp member
  simp at passed

theorem cut_some [DecidableEq α] {c d : α} {s rest : List α}
    (behind : s.dropWhile (· ≠ c) = d :: rest) : s = s.takeWhile (· ≠ c) ++ c :: rest := by
  have same : d = c := by simpa using stops_dropWhile (· ≠ c) s d (by rw [behind]; rfl)
  rw [← same, ← behind, same]
  exact List.takeWhile_append_dropWhile.symm

theorem cut_append [DecidableEq α] {c : α} {a : List α} (b : List α) (plain : c ∉ a) :
    (a ++ c :: b).takeWhile (· ≠ c) = a ∧ (a ++ c :: b).dropWhile (· ≠ c) = c :: b := by
  have passes : ∀ x ∈ a, decide (x ≠ c) = true := fun x member =>
    decide_eq_true fun same => plain (same ▸ member)
  have stops : Stops (fun x => decide (x ≠ c)) (c :: b) := .cons b (by simp)
  exact ⟨takeWhile_append passes stops, dropWhile_append passes stops⟩

theorem cut_inj [DecidableEq α] {c : α} {a a' b b' : List α} (plain : c ∉ a) (plain' : c ∉ a')
    (same : a ++ c :: b = a' ++ c :: b') : a = a' ∧ b = b' := by
  have front := congrArg (List.takeWhile (· ≠ c)) same
  rw [(cut_append b plain).1, (cut_append b' plain').1] at front
  subst front
  exact ⟨rfl, (List.cons.inj (List.append_cancel_left same)).2⟩

variable {q : α → Bool} {x : α}

theorem dropWhile_takeWhile (passes : ∀ x, p x = true → q x = true) (s : List α) :
    (s.takeWhile q).dropWhile p = (s.dropWhile p).takeWhile q := by
  induction s with
  | nil => rfl
  | cons y s ih =>
    cases first : p y with
    | true => rw [List.takeWhile_cons_of_pos (passes y first), List.dropWhile_cons_of_pos first,
        List.dropWhile_cons_of_pos first, ih]
    | false =>
      have fails : ¬ p y = true := by simp [first]
      rw [List.dropWhile_cons_of_neg fails, List.takeWhile_cons]
      split
      · rw [List.dropWhile_cons_of_neg fails]
      · rfl

theorem rdropWhile_takeWhile_concat (item : p x = true) (passes : q x = true) (s : List α) :
    ((s ++ [x]).takeWhile q).rdropWhile p = (s.takeWhile q).rdropWhile p := by
  rw [List.takeWhile_append]
  split
  · next whole =>
    have same : s.takeWhile q = s := (List.takeWhile_sublist q).eq_of_length whole
    rw [same, List.takeWhile_cons_of_pos passes, List.takeWhile_nil,
      List.rdropWhile_concat_pos _ _ _ item]
  · rfl

theorem rdropWhile_takeWhile (passes : ∀ x, p x = true → q x = true) (s : List α) :
    ((s.rdropWhile p).takeWhile q).rdropWhile p = (s.takeWhile q).rdropWhile p := by
  induction s using List.reverseRecOn with
  | nil => rw [List.rdropWhile_nil]
  | append_singleton s y ih =>
    cases last : p y with
    | true => rw [List.rdropWhile_concat_pos _ _ _ last, ih,
        rdropWhile_takeWhile_concat last (passes y last)]
    | false => rw [List.rdropWhile_concat_neg _ _ _ (by simp [last])]

theorem rdropWhile_append_of_all {back : List α} (passes : ∀ x ∈ back, p x = true) :
    (front ++ back).rdropWhile p = front.rdropWhile p := by
  unfold List.rdropWhile
  rw [List.reverse_append, List.dropWhile_append_of_pos fun x member =>
    passes x (List.mem_reverse.mp member)]

theorem rdropWhile_append_of_mem {back : List α} (member : x ∈ back) (fails : p x = false) :
    (front ++ back).rdropWhile p = front ++ back.rdropWhile p := by
  have kept : back.reverse.dropWhile p ≠ [] := fun gone => by
    have passed := List.dropWhile_eq_nil_iff.mp gone x (List.mem_reverse.mpr member)
    rw [fails] at passed
    cases passed
  unfold List.rdropWhile
  rw [List.reverse_append, List.dropWhile_append, if_neg (by simpa using kept),
    List.reverse_append, List.reverse_reverse]

theorem dropWhile_sublist {s t : List α} (sub : s.Sublist t) :
    (s.dropWhile p).Sublist (t.dropWhile p) := by
  induction sub with
  | slnil => exact .slnil
  | @cons s t x sub ih =>
    rw [List.dropWhile_cons]
    split
    · exact ih
    · exact (List.dropWhile_sublist p).trans (sub.cons x)
  | @cons_cons s t x sub ih =>
    rw [List.dropWhile_cons, List.dropWhile_cons]
    split
    · exact ih
    · exact sub.cons_cons x

theorem length_rdropWhile_le {s t : List α} (sub : s.Sublist t) :
    (s.rdropWhile p).length ≤ (t.rdropWhile p).length := by
  unfold List.rdropWhile
  rw [List.length_reverse, List.length_reverse]
  exact (dropWhile_sublist sub.reverse).length_le

theorem rdropWhile_dropWhile_concat (item : p x = true) (s : List α) :
    ((s ++ [x]).dropWhile p).rdropWhile p = (s.dropWhile p).rdropWhile p := by
  rw [List.dropWhile_append]
  split
  · next gone =>
    rw [List.isEmpty_iff.mp gone, List.dropWhile_cons_of_pos item, List.dropWhile_nil]
  · exact List.rdropWhile_concat_pos _ _ _ item

theorem modifyHead_nil_append (parts : List (List α)) : parts.modifyHead ([] ++ ·) = parts := by
  cases parts with
  | nil => rfl
  | cons part parts => rfl

section

variable [BEq α] {mark : α} {test : List α → Bool}

theorem splitOn_any_concat (other : (x == mark) = false)
    (same : ∀ s, test (s ++ [x]) = test s) (s pre : List α) :
    (((s ++ [x]).splitOn mark).modifyHead (pre ++ ·)).any test =
      ((s.splitOn mark).modifyHead (pre ++ ·)).any test := by
  induction s generalizing pre with
  | nil =>
    unfold List.splitOn
    rw [List.nil_append, List.splitOnP_cons_eq_if_modifyHead, other]
    simp [same]
  | cons c s ih =>
    unfold List.splitOn at ih ⊢
    rw [List.cons_append, List.splitOnP_cons_eq_if_modifyHead,
      List.splitOnP_cons_eq_if_modifyHead]
    split
    · have later := ih []
      rw [modifyHead_nil_append, modifyHead_nil_append] at later
      simp [later]
    · have later := ih (pre ++ [c])
      simpa [List.modifyHead_modifyHead, Function.comp_def] using later

theorem splitOn_any_rdropWhile (others : ∀ x, p x = true → (x == mark) = false)
    (same : ∀ s x, p x = true → test (s ++ [x]) = test s) (s : List α) :
    ((s.rdropWhile p).splitOn mark).any test = (s.splitOn mark).any test := by
  induction s using List.reverseRecOn with
  | nil => rw [List.rdropWhile_nil]
  | append_singleton s y ih =>
    cases last : p y with
    | true =>
      rw [List.rdropWhile_concat_pos _ _ _ last, ih]
      have one := splitOn_any_concat (others y last) (fun s => same s y last) s []
      rw [modifyHead_nil_append, modifyHead_nil_append] at one
      exact one.symm
    | false => rw [List.rdropWhile_concat_neg _ _ _ (by simp [last])]

end

end Span
