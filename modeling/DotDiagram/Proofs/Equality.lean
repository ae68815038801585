import Mathlib.Data.List.Perm.Subperm
import DotDiagram.AttrSet
import DotDiagram.Proofs.Binary64
import DotDiagram.Proofs.Keyed

/-! Equality of attribute sets. Two sets are equal if they have the same names and name by
name equal values, in whatever order. Numbers are compared as quantities, so a set that
holds a NaN is not even equal to itself. -/

namespace DotDiagram

namespace Keyed

variable {α : Type}

/-- The orders do not matter. -/
theorem agrees_iff {same : α → α → Bool} {m n : Keyed α} :
    m.agrees same n = true ↔
      (∀ key, key ∈ m.keys ↔ key ∈ n.keys) ∧
        ∀ key v w, m.get? key = some v → n.get? key = some w → same v w = true := by
  have hagrees : m.agrees same n = true ↔ m.keys.length = n.keys.length ∧
      ∀ key v, m.get? key = some v → ∃ w, n.get? key = some w ∧ same v w = true := by
    simp only [agrees, Bool.and_eq_true, beq_iff_eq, List.all_eq_true, Prod.forall,
      ← get?_eq_some_iff]
    refine and_congr (by simp [size, keys, keysOf]) ?_
    refine forall_congr' fun key => forall_congr' fun v => imp_congr_right fun _ => ?_
    cases n.get? key <;> simp
  rw [hagrees]
  constructor
  · rintro ⟨hlength, hall⟩
    have hsub : m.keys ⊆ n.keys := by
      intro key hkey
      obtain ⟨v, hv⟩ := mem_keys_iff_exists.mp hkey
      obtain ⟨w, hw, -⟩ := hall key v hv
      exact mem_keys_iff_exists.mpr ⟨w, hw⟩
    have hperm : m.keys.Perm n.keys :=
      (List.subperm_of_subset m.nodup hsub).perm_of_length_le hlength.ge
    refine ⟨fun key => hperm.mem_iff, fun key v w hv hw => ?_⟩
    obtain ⟨w', hw', hsame⟩ := hall key v hv
    cases hw.symm.trans hw'
    exact hsame
  · rintro ⟨hkeys, hall⟩
    have hperm : m.keys.Perm n.keys := (List.perm_ext_iff_of_nodup m.nodup n.nodup).mpr hkeys
    refine ⟨hperm.length_eq, fun key v hv => ?_⟩
    obtain ⟨w, hw⟩ := mem_keys_iff_exists.mp ((hkeys key).mp (mem_keys_iff_exists.mpr ⟨v, hv⟩))
    exact ⟨w, hw, hall key v w hv hw⟩

end Keyed

/-- Numbers are equal if they stand for the same quantity, and all else if it is the same. -/
inductive AttrValue.Equal : AttrValue → AttrValue → Prop where
  | text (s : String) : Equal (.text s) (.text s)
  | integer (n : Int) : Equal (.integer n) (.integer n)
  | number {x y : Binary64} {q : Quantity} (left : x.quantity? = some q)
      (right : y.quantity? = some q) : Equal (.number x) (.number y)
  | flag (b : Bool) : Equal (.flag b) (.flag b)
  | markup (body : String) : Equal (.markup body) (.markup body)

theorem AttrValue.same_iff {v w : AttrValue} : v.same w = true ↔ v.Equal w := by
  constructor
  · intro h
    cases v <;> cases w <;> simp only [same, beq_iff_eq, reduceCtorEq, AttrValue.text.injEq,
      AttrValue.integer.injEq, AttrValue.flag.injEq, AttrValue.markup.injEq] at h
    case number.number x y =>
      obtain ⟨q, hx, hy⟩ := Binary64.sameNumber_iff.mp h
      exact .number hx hy
    all_goals
      subst h
      constructor
  · intro h
    cases h with
    | number left right => exact Binary64.sameNumber_iff.mpr ⟨_, left, right⟩
    | text s | integer n | flag b | markup body => exact beq_self_eq_true _

namespace AttrSet

open Keyed

theorem same_iff {a b : AttrSet} :
    a.same b = true ↔ (∀ key, key ∈ a.keys ↔ key ∈ b.keys) ∧
      ∀ key v w, a.get? key = some v → b.get? key = some w → v.Equal w := by
  simp only [AttrSet.same, agrees_iff, AttrValue.same_iff]

theorem same_self_iff {a : AttrSet} :
    a.same a = true ↔ ∀ key x, a.get? key = some (.number x) → x.isNaN = false := by
  rw [same_iff, and_iff_right fun key => Iff.rfl]
  constructor
  · intro h key x hx
    cases h key _ _ hx hx with
    | number left right =>
      rw [Bool.eq_false_iff]
      intro hnan
      rw [Binary64.quantity?_eq_none_iff.mpr hnan] at left
      cases left
  · intro h key v w hv hw
    cases hv.symm.trans hw
    cases v with
    | number x =>
      obtain ⟨q, hq⟩ := Binary64.exists_quantity (h key x hv)
      exact .number hq hq
    | text s | integer n | flag b | markup body => constructor

end AttrSet

end DotDiagram
