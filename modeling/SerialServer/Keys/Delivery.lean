import SerialServer.Keys.Debounce

/-!
# SerialServer.Keys.Delivery

When a reader of the input device learns of a key.

The kernel hands the events written to the device to a reader when an `EV_SYN` follows.
`keyevent` writes its `EV_SYN` first and the key after it, so what a tick writes ends with
a key that nothing follows (`keyinput_eq`), and that key waits for the next one. The events
of a tick are all delivered only if there are none.
-/

namespace SerialServer.Gpioinput

open Settle

/-- Each key event is followed by an `EV_SYN`. -/
def Delivered : List InputEvent → Prop
  | [] => True
  | ev :: evs => (ev.type = evKey → ∃ syn ∈ evs, syn.type = evSyn) ∧ Delivered evs

instance Delivered.decidable : (evs : List InputEvent) → Decidable (Delivered evs)
  | [] => .isTrue trivial
  | _ :: evs =>
    have := Delivered.decidable evs
    inferInstanceAs (Decidable ((_ → _) ∧ _))

/-- A key event at the end is not followed by anything. -/
theorem not_delivered_snoc {ev : InputEvent} (hev : ev.type = evKey) (evs : List InputEvent) :
    ¬ Delivered (evs ++ [ev]) := by
  induction evs with
  | nil =>
    rintro ⟨hsyn, -⟩
    obtain ⟨syn, hmem, -⟩ := hsyn hev
    cases hmem
  | cons _ evs ih => exact fun h => ih h.2

/-- A call of `keyevent` for key `n` ends with the event of that key. -/
theorem keyevent_eq (n : Fin 6) (press : Word) :
    keyevent (key6 n) press = [⟨evSyn, 0, 0⟩, keyEvent n (decide (press ≠ 0))] := by
  by_cases hp : press = 0
  · rw [keyevent, if_neg (not_not_intro hp), keyEvent, hp]
    rfl
  · rw [keyevent, if_pos hp, keyEvent, if_pos (decide_eq_true hp)]

/-- One turn of the loop writes nothing, or ends with a key. -/
theorem key1_eq (g : Gpio) (n : Fin 6) :
    key1 g n = [] ∨ ∃ pressed, key1 g n = [⟨evSyn, 0, 0⟩, keyEvent n pressed] := by
  unfold key1
  dsimp only
  split
  · exact .inr ⟨_, keyevent_eq n 1⟩
  · split
    · exact .inr ⟨_, keyevent_eq n 0⟩
    · exact .inl rfl

/-- **A scan writes nothing, or ends with a key.** -/
theorem keyinput_eq (g : Gpio) :
    keyinput g = [] ∨ ∃ evs n pressed, keyinput g = evs ++ [keyEvent n pressed] := by
  unfold keyinput
  -- The induction is on the last key that was looked at.
  induction List.finRange 6 using List.reverseRecOn with
  | nil => exact .inl rfl
  | append_singleton ks n ih =>
    rw [List.flatMap_append, List.flatMap_singleton]
    rcases key1_eq g n with hnone | ⟨pressed, hkey⟩
    · rw [hnone, List.append_nil]
      exact ih
    · refine .inr ⟨ks.flatMap (key1 g) ++ [⟨evSyn, 0, 0⟩], n, pressed, ?_⟩
      rw [hkey, List.append_assoc, List.singleton_append]

theorem delivered_keyinput_iff (g : Gpio) :
    Delivered (keyinput g) ↔ ∀ n pressed, keyEvent n pressed ∉ keyinput g := by
  rcases keyinput_eq g with hnil | ⟨evs, n, pressed, hkey⟩
  · rw [hnil]
    exact iff_of_true trivial fun _ _ => List.not_mem_nil
  · rw [hkey]
    refine iff_of_false (not_delivered_snoc rfl evs) fun h => ?_
    exact h n pressed (List.mem_append_right evs (List.mem_singleton_self _))

/-- The events of one tick are delivered when it ends exactly if no key settles at it. -/
theorem delivered_tick_iff (init : Word) (samples : List Word) (t : Nat) :
    Delivered ((ticks init samples).getD t []) ↔
      ∀ n x, ¬ SecondAt (levels n init samples) x (t + 1) := by
  have hkeys : Delivered ((ticks init samples).getD t []) ↔
      ∀ n pressed, keyEvent n pressed ∉ (ticks init samples).getD t [] := by
    rw [List.getD_eq_getElem?_getD]
    cases hevs : (ticks init samples)[t]? with
    | none => exact iff_of_true trivial fun _ _ => List.not_mem_nil
    | some evs =>
      obtain ⟨g, rfl⟩ := exists_keyinput (List.mem_of_getElem? hevs)
      exact delivered_keyinput_iff g
  rw [hkeys]
  constructor
  · intro h n x hsecond
    refine h n (!x) ((emitted_iff init samples n t (!x)).2 ?_)
    rwa [Bool.not_not]
  · intro h n pressed hmem
    exact h n (!pressed) ((emitted_iff init samples n t pressed).1 hmem)

/-- **Every tick delivers its events exactly when there are none**: when no key's level is
seen for the second time after the other one, so that no press or release is due. -/
theorem delivered_iff (init : Word) (samples : List Word) :
    (∀ evs ∈ ticks init samples, Delivered evs) ↔
      ∀ n x k, ¬ SecondAt (levels n init samples) x k := by
  constructor
  · intro h n x k hsecond
    -- A level has come a second time at the third sample at the earliest.
    obtain ⟨t, rfl⟩ : ∃ t, k = t + 1 := by
      obtain ⟨j, -, rfl, -⟩ := hsecond
      exact ⟨j + 1, rfl⟩
    refine (delivered_tick_iff init samples t).1 ?_ n x hsecond
    rw [List.getD_eq_getElem?_getD]
    cases hevs : (ticks init samples)[t]? with
    | none => trivial
    | some evs => exact h evs (List.mem_of_getElem? hevs)
  · intro h evs hmem
    obtain ⟨t, ht, rfl⟩ := List.mem_iff_getElem.1 hmem
    have htick := (delivered_tick_iff init samples t).2 fun n x => h n x (t + 1)
    rwa [List.getD_eq_getElem?_getD, List.getElem?_eq_getElem ht] at htick

/-- The first press of a key is not delivered at the tick that notices it. -/
theorem not_delivered :
    ¬ ∀ (init : Word) (samples : List Word), ∀ evs ∈ ticks init samples, Delivered evs := by
  intro h
  have hpress := h 0x80000000 [0, 0] [⟨evSyn, 0, 0⟩, ⟨evKey, 105, 1⟩] (by decide)
  revert hpress
  decide

end SerialServer.Gpioinput
