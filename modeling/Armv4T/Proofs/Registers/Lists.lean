import Mathlib
import Armv4T.Addressing
import Armv4T.Proofs.Word.Bits

/-!
# Lists of registers

A block transfer names its registers by the bits of a mask. They are transferred in ascending order,
each once, so there are at most sixteen of them (`RegList.length_toList_le`), and at most eight if
the mask has eight bits. A store that puts the lowest register of its list ahead of the others takes
it out of the list and transfers as many words as before (`BlockAddress.length_ofFields`).
-/

namespace Armv4T

namespace RegList

lemma nodup_toList (l : RegList) : l.toList.Nodup := (List.nodup_finRange 16).filter _

lemma length_toList_le (l : RegList) : l.toList.length ≤ 16 :=
  (List.length_filter_le _ _).trans_eq List.length_finRange

/-- A register is listed if its bit is set in the mask. -/
lemma contains_eq_testBit (l : RegList) (i : Reg) : l.contains i = l.mask.toNat.testBit i := by
  have hi : (UInt32.ofNat i.val).toNat = i.val := Word.toNat_ofNat_of_lt (by omega)
  rw [contains, Word.bit_eq_testBit _ (by omega), hi]

/-- Taking a register out of a list. -/
lemma toList_erase (l : RegList) (r : Reg) :
    (l.erase r).toList = l.toList.filter fun i => i ≠ r := by
  have hcontains (i : Reg) : (l.erase r).contains i = (l.contains i && decide (i ≠ r)) := by
    have hi : (UInt32.ofNat i.val).toNat < 32 :=
      (Word.toNat_ofNat_of_lt (by omega)).trans_lt (by omega)
    have hone : ((1 : Word) <<< UInt32.ofNat r.val).bit (.ofNat i.val) = decide (r = i) := by
      have hflag := Word.bit_ofBool_shiftLeft true (r.castLE (by decide)) (i.castLE (by decide))
      rw [Bool.true_and] at hflag
      refine hflag.trans (decide_eq_decide.mpr ?_)
      exact (Fin.castLE_injective _).eq_iff
    rw [contains, contains, erase, Word.bit_and _ _ hi, Word.bit_not _ hi, hone]
    simp [eq_comm]
  rw [toList, List.filter_congr fun i _ => hcontains i, toList, List.filter_filter]
  exact List.filter_congr fun i _ => Bool.and_comm _ _

/-- A list without its lowest register. -/
lemma toList_erase_of_head {l : RegList} {r : Reg} {rest : List Reg} (h : l.toList = r :: rest) :
    (l.erase r).toList = rest := by
  have hnodup := l.nodup_toList
  rw [h] at hnodup
  have hr : r ∉ rest := (List.nodup_cons.mp hnodup).1
  rw [toList_erase, h, List.filter_cons_of_neg (by simp), List.filter_eq_self]
  intro i hi
  simpa using fun e : i = r => hr (e ▸ hi)

/-- A mask of eight bits lists at most eight registers. -/
lemma length_toList_le_of_low {l : RegList} (h : l.mask.toNat < 2 ^ 8) : l.toList.length ≤ 8 := by
  have hlow : ∀ i ∈ List.finRange 16, l.contains i = true → decide (i.val < 8) = true := by
    intro i _ hi
    rw [contains_eq_testBit] at hi
    have hpow : 2 ^ i.val < 2 ^ 8 := (Nat.ge_two_pow_of_testBit hi).trans_lt h
    exact decide_eq_true ((Nat.pow_lt_pow_iff_right (by decide)).mp hpow)
  rw [toList, ← List.countP_eq_length_filter]
  exact (List.countP_mono_left hlow).trans (by decide)

end RegList

/-- The registers left to transfer, and the base if it is stored ahead of them, are as many as are
listed. -/
lemma BlockAddress.length_ofFields (rn : Reg) (l : RegList) (pre up writeback store : Bool) :
    (ofFields rn l pre up writeback store).2.toList.length +
        ((ofFields rn l pre up writeback store).1.overlap &&
          (ofFields rn l pre up writeback store).1.writeback).toNat = l.toList.length := by
  show (if store && writeback && l.toList.head? == some rn then l.erase rn else l).toList.length +
    (store && writeback && l.toList.head? == some rn && writeback).toNat = _
  rcases hahead : store && writeback && l.toList.head? == some rn with _ | _
  · rfl
  · obtain ⟨⟨-, hwriteback⟩, hhead⟩ : (store = true ∧ writeback = true) ∧
        l.toList.head? = some rn := by simpa using hahead
    obtain ⟨rest, hlist⟩ := List.head?_eq_some_iff.mp hhead
    rw [if_pos rfl, RegList.toList_erase_of_head hlist, hlist, hwriteback]
    rfl

end Armv4T
