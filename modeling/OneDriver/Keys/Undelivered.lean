import OneDriver.Keys.Read

set_option autoImplicit false

namespace OneDriver.Keys

-- The bytes a read answers for: it returned a count that takes them in, and they
-- are in the user's buffer. An error answers for none.
def DeliveredBy (s t : KeysState) (r : Int) (n : Fin 6) : Prop := (n.val : Int) < r ∧ t.user n = s.keyValues n

theorem run_read_deliver (call : ReadCall) (s : KeysState) (pressed : s.evPress = 1) :
    (buttonsRead call).run s =
      .done (if copyFails call.size call.fault then -efault else call.size)
        { s with
          evPress := 0
          user := fun n => if n.val < copied call.size call.fault then s.keyValues n else s.user n } := by
  have raised : ¬ s.evPress = 0 := by omega
  simp only [buttonsRead, Prog.run_bind, Prog.run_look, outcome_bind_done, if_neg raised, run_deliver_keys]

theorem delivered_by_iff (call : ReadCall) (s t : KeysState) (n : Fin 6)
    (user : t.user n = if n.val < copied call.size call.fault then s.keyValues n else s.user n) :
    DeliveredBy s t (if copyFails call.size call.fault then -efault else call.size) n ↔
      copyFails call.size call.fault = false ∧ n.val < call.count := by
  have size : n.val < call.size ↔ n.val < call.count := by
    simp only [ReadCall.size]
    omega
  cases fails : copyFails call.size call.fault with
  | true =>
      simp only [DeliveredBy, if_true, efault, Bool.true_eq_false, false_and, iff_false]
      omega
  | false =>
      rw [copied_of_succeeds call.size call.fault fails] at user
      simp only [DeliveredBy, Bool.false_eq_true, if_false, true_and, ← size, Int.ofNat_lt, and_iff_left_iff_imp]
      intro below
      rw [user, if_pos below]

-- The flag is cleared before the copy, whatever the copy then does.
theorem events_survive_read_iff (call : ReadCall) (s : KeysState) (last : Fin 6 → UInt8) (pressed : s.evPress = 1) :
    (∃ r t, (buttonsRead call).run s = .done r t ∧
      ((∀ n, s.keyValues n ≠ last n → DeliveredBy s t r n) ∨ t.evPress = 1)) ↔
      ∀ n, s.keyValues n ≠ last n → copyFails call.size call.fault = false ∧ n.val < call.count := by
  rw [Prog.run_exists_iff _ _ _ _
    (fun r t => (∀ n, s.keyValues n ≠ last n → DeliveredBy s t r n) ∨ t.evPress = 1) (run_read_deliver call s pressed)]
  have cleared : ¬ (0 : Int) = 1 := by decide
  rw [or_iff_left cleared]
  apply forall_congr'
  intro n
  rw [delivered_by_iff call s _ n rfl]

theorem whole_read_delivers :
    ({ quietKeys with evPress := 1 } : KeysState).evPress = 1 ∧
      ∃ r t, (buttonsRead ⟨6, false, none⟩).run { quietKeys with evPress := 1 } = .done r t ∧
        ((∀ n, quietKeys.keyValues n ≠ 49 → DeliveredBy { quietKeys with evPress := 1 } t r n) ∨ t.evPress = 1) :=
  ⟨rfl, (events_survive_read_iff ⟨6, false, none⟩ { quietKeys with evPress := 1 } (fun _ => 49) rfl).mpr
    fun n _ => ⟨rfl, n.isLt⟩⟩

-- A press of the first key, then a read of no bytes: a poll finds nothing to read.
theorem empty_read_drops_press :
    ∃ results s, (Prog.series KeyEvent.prog [.level 192 false, .interrupt key0]).run quietKeys = .done results s ∧
      s.evPress = 1 ∧ ∃ r t, (buttonsRead ⟨0, false, none⟩).run s = .done r t ∧
        buttonsPoll.run t = .done 0 t ∧
        ¬ ((∀ n, s.keyValues n ≠ s.user n → DeliveredBy s t r n) ∨ t.evPress = 1) := by
  refine ⟨_, _, rfl, rfl, _, _, rfl, rfl, ?_⟩
  intro law
  cases law with
  | inl delivered => exact absurd (delivered 0 (by decide)).1 (by decide)
  | inr flag => exact absurd flag (by decide)

end OneDriver.Keys
