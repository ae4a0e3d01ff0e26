import Chip8.Proofs.WellFormed

/-! The call stack as a list of return addresses, the oldest first, and histories of calls and
returns on such a list: the last address in is the first one out. -/
namespace Chip8

namespace CallStack
variable {s t : CallStack} {a : UInt16}
open WellFormed (push_pointer pop_pointer)

theorem length_toList (h : s.pointer.toNat ≤ 16) : s.toList.length = s.pointer.toNat := by
  simp [toList, h]

theorem getElem_toList {k : Nat} (hk : k < 16) (h : k < s.pointer.toNat) :
    s.toList[k]? = some s.slots[k] := by
  rw [toList, List.getElem?_take_of_lt h, ← Vector.getElem?_eq_getElem hk]
  exact Vector.getElem?_toList

theorem toList_push (hf : s.isFull = false) (a : UInt16) :
    (s.push a).toList = s.toList ++ [a] := by
  obtain ⟨hp, hnext⟩ := push_pointer hf
  have hlt : s.pointer.toNat < (s.slots.toList.set s.pointer.toNat a).length := by simpa using hp
  simp only [toList, push, hnext, Vector.toList_setIfInBounds]
  rw [List.take_succ_eq_append_getElem hlt, List.take_set_of_le (Nat.le_refl _),
    List.getElem_set_self]

theorem toList_pop (hle : s.pointer.toNat ≤ 16) (he : s.isEmpty = false) :
    s.pop.1.toList ++ [s.pop.2] = s.toList := by
  obtain ⟨h0, hp⟩ := pop_pointer he
  have hmin : min (s.pointer.toNat - 1) 15 = s.pointer.toNat - 1 := by omega
  have hlt : s.pointer.toNat - 1 < s.slots.toList.length := by
    rw [Vector.length_toList]
    omega
  have hnext : s.pointer.toNat - 1 + 1 = s.pointer.toNat := by omega
  simp only [toList, pop, hp, hmin, Vector.toList_setIfInBounds]
  rw [List.take_set_of_le (Nat.le_refl _), ← Vector.getElem_toList hlt, List.take_append_getElem,
    hnext]

/-- Free slots hold zeros, so the list of a stack has the whole of it. -/
theorem WellFormed.eq_of_toList (hs : s.WellFormed) (ht : t.WellFormed)
    (h : s.toList = t.toList) : s = t := by
  have hp : s.pointer.toNat = t.pointer.toNat := by
    rw [← length_toList hs.pointer_le, h, length_toList ht.pointer_le]
  have hslots : s.slots = t.slots := by
    apply Vector.ext
    intro k hk
    by_cases hlt : k < s.pointer.toNat
    · have he : s.toList[k]? = t.toList[k]? := by rw [h]
      rw [getElem_toList hk hlt, getElem_toList hk (hp ▸ hlt)] at he
      exact Option.some.inj he
    · rw [hs.free k hk (by omega), ht.free k hk (by omega)]
  cases s
  cases t
  simp_all [UInt8.toNat_inj]

end CallStack

/-- A call leaves the address behind it, a return goes on at an address. -/
inductive Transfer where
  | call (back : UInt16)
  | ret (next : UInt16)
  deriving DecidableEq

/-- Every call is followed by its return, whatever addresses the two have. -/
inductive Balanced : List Transfer → Prop
  | nil : Balanced []
  | nest {inner rest : List Transfer} (back next : UInt16) (hi : Balanced inner)
      (hr : Balanced rest) : Balanced (.call back :: inner ++ .ret next :: rest)

/-- The addresses behind the calls of a history that no return has answered, in order: what
lies before, between and after these calls is balanced. -/
inductive Pending : List Transfer → List UInt16 → Prop
  | nil {h : List Transfer} (hb : Balanced h) : Pending h []
  | call {h b : List Transfer} {l : List UInt16} (back : UInt16) (hp : Pending h l)
      (hb : Balanced b) : Pending (h ++ .call back :: b) (l ++ [back])

/-- A history takes one list to another: calls append, returns take the last address off. -/
inductive Lifo : List UInt16 → List Transfer → List UInt16 → Prop
  | nil (l : List UInt16) : Lifo l [] l
  | call {l l' : List UInt16} {h : List Transfer} {a : UInt16} (hc : Lifo (l ++ [a]) h l') :
      Lifo l (.call a :: h) l'
  | ret {l l' : List UInt16} {h : List Transfer} {a : UInt16} (hr : Lifo l h l') :
      Lifo (l ++ [a]) (.ret a :: h) l'

theorem Balanced.append {b c : List Transfer} (hb : Balanced b) (hc : Balanced c) :
    Balanced (b ++ c) := by
  induction hb with
  | nil => exact hc
  | nest back next hi hr ihi ihr =>
    rw [List.append_assoc, List.cons_append]
    exact .nest back next hi ihr

theorem Pending.append {h b : List Transfer} {l : List UInt16} (hp : Pending h l)
    (hb : Balanced b) : Pending (h ++ b) l := by
  cases hp with
  | nil hh => exact .nil (hh.append hb)
  | call back hp hc =>
    rw [List.append_assoc, List.cons_append]
    exact .call back hp (hc.append hb)

/-- A return answers the last call that waits for one. -/
theorem Pending.ret {h : List Transfer} {l : List UInt16} {a : UInt16}
    (hp : Pending h (l ++ [a])) (next : UInt16) : Pending (h ++ [.ret next]) l := by
  generalize hk : l ++ [a] = k at hp
  cases hp with
  | nil hb => simp at hk
  | @call h b l' back hp hb =>
    obtain ⟨rfl, -⟩ := List.append_inj' hk rfl
    rw [List.append_assoc]
    exact hp.append (.nest back next hb .nil)

namespace Lifo
variable {l k l' : List UInt16} {h g b : List Transfer} {a : UInt16}

theorem nil_iff : Lifo l [] l' ↔ l = l' :=
  ⟨fun hl => by cases hl; rfl, fun he => he ▸ .nil l⟩

theorem call_iff : Lifo l (.call a :: h) l' ↔ Lifo (l ++ [a]) h l' :=
  ⟨fun hl => by cases hl; assumption, .call⟩

theorem ret_iff : Lifo k (.ret a :: h) l' ↔ ∃ l, k = l ++ [a] ∧ Lifo l h l' := by
  constructor
  · intro hl
    cases hl with
    | ret hr => exact ⟨_, rfl, hr⟩
  · rintro ⟨l, rfl, hr⟩
    exact .ret hr

theorem append_iff : Lifo l (h ++ g) l' ↔ ∃ k, Lifo l h k ∧ Lifo k g l' := by
  induction h generalizing l with
  | nil =>
    constructor
    · exact fun hg => ⟨l, .nil l, hg⟩
    · rintro ⟨k, hn, hg⟩
      rwa [nil_iff.1 hn]
  | cons t h ih =>
    cases t with
    | call a => simp only [List.cons_append, call_iff, ih]
    | ret a =>
      simp only [List.cons_append, ret_iff, ih]
      constructor
      · rintro ⟨l, rfl, k, hh, hg⟩
        exact ⟨k, ⟨l, rfl, hh⟩, hg⟩
      · rintro ⟨k, ⟨l, rfl, hh⟩, hg⟩
        exact ⟨l, rfl, k, hh, hg⟩

/-- A balanced history ends with the list that it began with. -/
theorem eq_of_balanced (hb : Balanced b) (hl : Lifo l b l') : l' = l := by
  induction hb generalizing l l' with
  | nil => exact (nil_iff.1 hl).symm
  | nest back next hi hr ihi ihr =>
    obtain ⟨k, hk, hg⟩ := append_iff.1 hl
    obtain ⟨l₁, hl₁, hrest⟩ := ret_iff.1 hg
    have hinner := ihi (call_iff.1 hk)
    obtain ⟨rfl, -⟩ := List.append_inj' (hinner.symm.trans hl₁) rfl
    exact ihr hrest

/-- A return goes on behind the call that it answers. -/
theorem back_of_balanced {back next : UInt16} (hb : Balanced b)
    (hl : Lifo l (h ++ .call back :: b ++ .ret next :: g) l') : next = back := by
  obtain ⟨k, hk, hg⟩ := append_iff.1 hl
  obtain ⟨k₀, -, hc⟩ := append_iff.1 hk
  obtain ⟨k₁, hk₁, -⟩ := ret_iff.1 hg
  have hinner := eq_of_balanced hb (call_iff.1 hc)
  obtain ⟨-, ha⟩ := List.append_inj' (hk₁.symm.trans hinner) rfl
  exact List.head_eq_of_cons_eq ha

/-- From the empty list a history arrives at the addresses of its open calls. -/
theorem pending (hl : Lifo [] h l) : Pending h l := by
  induction h using List.reverseRecOn generalizing l with
  | nil =>
    rw [← nil_iff.1 hl]
    exact .nil .nil
  | append_singleton h t ih =>
    obtain ⟨k, hh, ht⟩ := append_iff.1 hl
    cases t with
    | call a =>
      rw [← nil_iff.1 (call_iff.1 ht)]
      exact .call a (ih hh) .nil
    | ret a =>
      obtain ⟨l₁, rfl, hn⟩ := ret_iff.1 ht
      rw [← nil_iff.1 hn]
      exact (ih hh).ret a

end Lifo
end Chip8
