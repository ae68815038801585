import DotDiagram.Proofs.Text.Scan
import Mathlib.Data.List.DropRight
import Mathlib.Data.List.TakeWhile

/-! What trimming leaves neither begins nor ends with white space. A text may be written thing
by thing, where a thing is either all white space or neither begins nor ends with it. What is
left then is the text less some of its white space. -/

namespace DotDiagram

theorem exists_trim (cs : List Char) :
    ∃ lead trail, cs = lead ++ trim cs ++ trail ∧ (∀ c ∈ lead, isBlank c = true) ∧
      ∀ c ∈ trail, isBlank c = true := by
  have hleft : cs.takeWhile isBlank ++ trimLeft cs = cs := List.takeWhile_append_dropWhile
  have hright : trim cs ++ ((trimLeft cs).reverse.takeWhile isBlank).reverse = trimLeft cs := by
    rw [trim, trimRight, ← List.reverse_append, List.takeWhile_append_dropWhile,
      List.reverse_reverse]
  refine ⟨cs.takeWhile isBlank, ((trimLeft cs).reverse.takeWhile isBlank).reverse, ?_, ?_, ?_⟩
  · rw [List.append_assoc, hright, hleft]
  · exact fun c hc => List.mem_takeWhile_imp hc
  · exact fun c hc => List.mem_takeWhile_imp (List.mem_reverse.mp hc)

theorem head?_trim (cs : List Char) : ∀ c ∈ (trim cs).head?, isBlank c = false := by
  intro c hc
  obtain ⟨trail, htrail⟩ := prefix_trimRight (trimLeft cs)
  obtain ⟨line, hline⟩ := List.head?_eq_some_iff.mp hc
  have hhead : (trimLeft cs).head? = some c := by
    rw [← htrail, ← trim, hline]
    rfl
  have hstop := List.head?_dropWhile_not isBlank cs
  rw [← trimLeft, hhead] at hstop
  simpa using hstop

theorem getLast?_trim (cs : List Char) : ∀ c ∈ (trim cs).getLast?, isBlank c = false := by
  intro c hc
  rw [trim, trimRight, List.getLast?_reverse] at hc
  have hstop := List.head?_dropWhile_not isBlank (trimLeft cs).reverse
  rw [hc] at hstop
  simpa using hstop

structure WritesBlanks {α : Type} (write : α → List Char) (blank : α → Bool) : Prop where
  blanks : ∀ x, blank x = true → ∀ c ∈ write x, isBlank c = true
  head : ∀ x, blank x = false → ∃ c ∈ (write x).head?, isBlank c = false
  last : ∀ x, blank x = false → ∃ c ∈ (write x).getLast?, isBlank c = false

namespace WritesBlanks

variable {α : Type} {write : α → List Char} {blank : α → Bool}

theorem reverse (h : WritesBlanks write blank) :
    WritesBlanks (fun x => (write x).reverse) blank where
  blanks x hx c hc := h.blanks x hx c (List.mem_reverse.mp hc)
  head x hx := by
    rw [List.head?_reverse]
    exact h.last x hx
  last x hx := by
    rw [List.getLast?_reverse]
    exact h.head x hx

theorem all_write (h : WritesBlanks write blank) (x : α) : (write x).all isBlank = blank x := by
  cases hx : blank x with
  | true => exact List.all_eq_true.mpr (h.blanks x hx)
  | false =>
    obtain ⟨c, hc, hseen⟩ := h.head x hx
    exact List.all_eq_false.mpr ⟨c, List.mem_of_mem_head? hc, by simp [hseen]⟩

theorem trimLeft_flatMap (h : WritesBlanks write blank) (xs : List α) :
    trimLeft (xs.flatMap write) = (xs.dropWhile blank).flatMap write := by
  induction xs with
  | nil => rfl
  | cons x xs ih =>
    rw [List.flatMap_cons, trimLeft]
    cases hx : blank x with
    | true =>
      rw [List.dropWhile_append_of_pos (h.blanks x hx), List.dropWhile_cons_of_pos hx]
      exact ih
    | false =>
      obtain ⟨c, hc, hseen⟩ := h.head x hx
      obtain ⟨cs, hcs⟩ := List.head?_eq_some_iff.mp hc
      have hx' : ¬ blank x = true := by simp [hx]
      have hseen' : ¬ isBlank c = true := by simp [hseen]
      rw [List.dropWhile_cons_of_neg hx', List.flatMap_cons, hcs, List.cons_append,
        List.dropWhile_cons_of_neg hseen']

theorem trimRight_flatMap (h : WritesBlanks write blank) (xs : List α) :
    trimRight (xs.flatMap write) = (xs.rdropWhile blank).flatMap write := by
  have hleft := h.reverse.trimLeft_flatMap xs.reverse
  rw [trimLeft] at hleft
  rw [trimRight, List.reverse_flatMap, Function.comp_def, hleft, List.rdropWhile,
    List.flatMap_reverse, Function.comp_def]

theorem trim_flatMap (h : WritesBlanks write blank) (xs : List α) :
    trim (xs.flatMap write) = ((xs.dropWhile blank).rdropWhile blank).flatMap write := by
  rw [trim, h.trimLeft_flatMap, h.trimRight_flatMap]

end WritesBlanks

/-- The first text is the second, less some white space. -/
structure LessBlanks (cs ds : List Char) : Prop where
  sublist : cs.Sublist ds
  seen : cs.filter (! isBlank ·) = ds.filter (! isBlank ·)

namespace LessBlanks

variable {α : Type} {cs cs' ds ds' es : List Char}

theorem refl (cs : List Char) : LessBlanks cs cs := ⟨.refl cs, rfl⟩

theorem trans (h : LessBlanks cs ds) (h' : LessBlanks ds es) : LessBlanks cs es :=
  ⟨h.sublist.trans h'.sublist, h.seen.trans h'.seen⟩

theorem append (h : LessBlanks cs ds) (h' : LessBlanks cs' ds') :
    LessBlanks (cs ++ cs') (ds ++ ds') :=
  ⟨h.sublist.append h'.sublist, by rw [List.filter_append, List.filter_append, h.seen, h'.seen]⟩

theorem reverse (h : LessBlanks cs ds) : LessBlanks cs.reverse ds.reverse :=
  ⟨h.sublist.reverse, by rw [List.filter_reverse, List.filter_reverse, h.seen]⟩

theorem of_blank (h : ∀ c ∈ cs, isBlank c = true) : LessBlanks [] cs :=
  ⟨List.nil_sublist cs, (List.filter_eq_nil_iff.mpr fun c hc => by simp [h c hc]).symm⟩

theorem flatMap {f g : α → List Char} {xs : List α} (h : ∀ x ∈ xs, LessBlanks (f x) (g x)) :
    LessBlanks (xs.flatMap f) (xs.flatMap g) := by
  induction xs with
  | nil => exact refl []
  | cons x xs ih =>
    exact (h x List.mem_cons_self).append (ih fun y hy => h y (List.mem_cons_of_mem x hy))

theorem dropWhile {f : α → List Char} {blank : α → Bool}
    (h : ∀ x, blank x = true → ∀ c ∈ f x, isBlank c = true) (xs : List α) :
    LessBlanks ((xs.dropWhile blank).flatMap f) (xs.flatMap f) := by
  induction xs with
  | nil => exact refl []
  | cons x xs ih =>
    cases hx : blank x with
    | true =>
      rw [List.dropWhile_cons_of_pos hx]
      exact (of_blank (h x hx)).append ih
    | false =>
      rw [List.dropWhile_cons_of_neg (by simp [hx])]
      exact refl _

theorem rdropWhile {f : α → List Char} {blank : α → Bool}
    (h : ∀ x, blank x = true → ∀ c ∈ f x, isBlank c = true) (xs : List α) :
    LessBlanks ((xs.rdropWhile blank).flatMap f) (xs.flatMap f) := by
  have hrev : ∀ x, blank x = true → ∀ c ∈ (f x).reverse, isBlank c = true :=
    fun x hx c hc => h x hx c (List.mem_reverse.mp hc)
  have hdrop := (dropWhile hrev xs.reverse).reverse
  simpa [List.rdropWhile, List.reverse_flatMap, Function.comp_def] using hdrop

theorem trimRight (cs : List Char) : LessBlanks (trimRight cs) cs := by
  have hsingle : ∀ c, isBlank c = true → ∀ d ∈ [c], isBlank d = true :=
    fun c hc d hd => List.mem_singleton.mp hd ▸ hc
  have hdrop := rdropWhile hsingle cs
  simpa [DotDiagram.trimRight, List.rdropWhile] using hdrop

end LessBlanks

end DotDiagram
