import OneDriver.Trail
import OneDriver.Adc.Device
import Mathlib

set_option autoImplicit false

namespace OneDriver.Adc

-- What sprintf leaves in str, without the NUL.
def valueText (value : Int) : List Char := (toString value).toList ++ ['\n']

-- A decimal number with its newline, and nothing after it.
def parseLine (text : List Char) : Option Int :=
  if text.getLast? = some '\n' then (String.ofList text.dropLast).toInt? else none

-- The bytes that reach the caller's buffer.
def ReadCall.placed (call : ReadCall) (value : Int) : List Char :=
  if (valueText value).length ≤ call.count then
    (valueText value).take (copied (valueText value).length call.fault)
  else []

def ReadLaw (call : ReadCall) (value r : Int) : Prop :=
  (0 ≤ r → r = (call.placed value).length ∧ parseLine (call.placed value) = some value) ∧
    ((call.placed value).length < (valueText value).length → r < 0)

theorem parse_value_text (value : Int) : parseLine (valueText value) = some value := by
  simp [parseLine, valueText]

theorem value_text_length (value : Int) : (valueText value).length = (toString value).length + 1 := by
  simp only [valueText, List.length_append, String.length_toList, List.length_singleton]

theorem value_text_long (value : Int) : 0 < (valueText value).length := by
  rw [value_text_length]
  exact Nat.succ_pos _

theorem decimal_digits_le (n : Nat) (small : n ≤ 2 ^ 31) : n.repr.length ≤ 10 := by
  rw [← String.length_toList, Nat.toList_repr, Nat.length_toDigits_le_iff (by decide) (by decide)]
  omega

-- sprintf stays inside str[20], whatever the int.
theorem value_text_fits (value : Int) (low : -2 ^ 31 ≤ value) (high : value < 2 ^ 31) :
    (valueText value).length + 1 ≤ 20 := by
  have digits : (toString value).length ≤ 11 := by
    change value.repr.length ≤ 11
    rw [Int.repr_eq_if]
    split
    · have short := decimal_digits_le value.toNat (by omega)
      omega
    · have short := decimal_digits_le (-value).toNat (by omega)
      rw [String.length_append]
      exact Nat.add_le_add (Nat.le_refl 1) short
  have long := value_text_length value
  omega

def ReadCall.answer (call : ReadCall) (value : Int) : Int :=
  let len := (valueText value).length
  if len ≤ call.count then if copyFails len call.fault then len - copied len call.fault else len
  else -einval

theorem format_ends (call : ReadCall) (entry : Formatted) (s t : AdcState) (r : Int)
    (ends : (formatValue call entry).Ends s t r) :
    t = { s with formatted := entry :: s.formatted } ∧ r = call.answer entry.value := by
  simp only [ReadCall.answer, value_text_length]
  exact Prog.ends_modify _ _ _ _ s t ends

theorem too_small (call : ReadCall) (value : Int) (small : call.count < (valueText value).length) :
    ReadLaw call value (call.answer value) := by
  have short : ¬ (valueText value).length ≤ call.count := by omega
  simp only [ReadLaw, ReadCall.answer, if_neg short]
  exact ⟨fun fine => absurd fine (by decide), fun _ => by decide⟩

theorem copied_whole (call : ReadCall) (value : Int) (room : (valueText value).length ≤ call.count)
    (succeeds : copyFails (valueText value).length call.fault = false) : ReadLaw call value (call.answer value) := by
  have placed : call.placed value = valueText value := by
    simp only [ReadCall.placed, if_pos room, copied_of_succeeds _ _ succeeds, List.take_length]
  simp only [ReadLaw, ReadCall.answer, if_pos room, succeeds, placed, parse_value_text]
  simp

-- What is left of the copy is reported as if it were what the caller got.
theorem cut_short (call : ReadCall) (value : Int) (room : (valueText value).length ≤ call.count)
    (fails : copyFails (valueText value).length call.fault = true) : ¬ ReadLaw call value (call.answer value) := by
  have reached := copied_le (valueText value).length call.fault
  have missed := of_decide_eq_true fails
  have placed : (call.placed value).length = copied (valueText value).length call.fault := by
    rw [ReadCall.placed, if_pos room, List.length_take, Nat.min_eq_left reached]
  intro law
  have negative := law.2 (placed ▸ missed)
  simp only [ReadCall.answer, if_pos room, fails, if_true] at negative
  omega

theorem answer_law_iff (call : ReadCall) (value : Int) :
    ReadLaw call value (call.answer value) ↔
      call.count < (valueText value).length ∨ copyFails (valueText value).length call.fault = false := by
  by_cases room : (valueText value).length ≤ call.count
  · cases copies : copyFails (valueText value).length call.fault with
    | false => exact iff_of_true (copied_whole call value room copies) (.inr rfl)
    | true => exact iff_of_false (cut_short call value room copies) (by simp only [reduceCtorEq, or_false]; omega)
  · exact iff_of_true (too_small call value (by omega)) (.inl (by omega))

-- However a read goes, and whatever runs beside it, it ends by formatting a value.
theorem read_ends (task rounds : Nat) (call : ReadCall) (s t : AdcState) (r : Int)
    (ends : (adcRead task rounds call).Ends s t r) : ∃ entry, (formatValue call entry).Ends s t r := by
  obtain ⟨taken, ends⟩ := Prog.ends_bind _ _ s t r ends fun taken _ => by cases taken <;> nofun
  cases taken with
  | false => exact ⟨_, ends⟩
  | true =>
      change (readOwned task rounds call).Ends s t r at ends
      obtain ⟨-, ends⟩ := Prog.ends_bind _ _ s t r ends fun _ _ => nofun
      obtain ⟨conversion, ends⟩ := Prog.ends_bind _ _ s t r ends fun _ _ => nofun
      obtain ⟨-, ends⟩ := Prog.ends_bind _ _ s t r ends fun _ _ => nofun
      obtain ⟨-, ends⟩ := Prog.ends_bind _ _ s t r ends fun _ _ => nofun
      obtain ⟨value, ends⟩ := Prog.ends_bind _ _ s t r ends fun _ _ => nofun
      obtain ⟨-, ends⟩ := Prog.ends_bind _ _ s t r ends fun _ _ => nofun
      obtain ⟨-, ends⟩ := Prog.ends_bind _ _ s t r ends fun _ _ => nofun
      exact ⟨_, ends⟩

theorem adc_read_law_iff (task rounds : Nat) (call : ReadCall) (s t : AdcState) (r : Int)
    (ends : (adcRead task rounds call).Ends s t r) :
    ∃ entry, t = { s with formatted := entry :: s.formatted } ∧ (ReadLaw call entry.value r ↔
      call.count < (valueText entry.value).length ∨ copyFails (valueText entry.value).length call.fault = false) := by
  obtain ⟨entry, formats⟩ := read_ends task rounds call s t r ends
  obtain ⟨left, rfl⟩ := format_ends call entry s t r formats
  exact ⟨entry, left, answer_law_iff call entry.value⟩

def lockedAdc : AdcState := { loadedAdc with adcLock := some 0 }

theorem read_of_a_locked_adc :
    ∃ t, (adcRead 1 3 ⟨16, none⟩).Ends lockedAdc t 3 ∧
      ∃ entry, t = { lockedAdc with formatted := entry :: lockedAdc.formatted } ∧
        (ReadLaw ⟨16, none⟩ entry.value 3 ↔
          16 < (valueText entry.value).length ∨ copyFails (valueText entry.value).length none = false) := by
  have ends : (adcRead 1 3 ⟨16, none⟩).Ends lockedAdc _ 3 :=
    .more _ _ _ _ lockedAdc _ _ _ rfl (.last _ _ _ _ lockedAdc 3 rfl rfl)
  exact ⟨_, ends, adc_read_law_iff 1 3 ⟨16, none⟩ lockedAdc _ 3 ends⟩

-- The second reader finds the lock taken; of "-1" and the newline one byte arrives.
theorem one_byte_read_as_two :
    ∃ pool, (acting (fun _ => 0) 3 loadedAdc [.process [.read ⟨16, none⟩], .process [.read ⟨16, some 1⟩]]).exec
        [0, 1, 1] = some pool ∧ pool.shared.formatted = [⟨-1, none, none⟩] ∧
      (pool.threads[1]?.bind Thread.value) = some [2] ∧
      ReadCall.placed ⟨16, some 1⟩ (-1) = ['-'] ∧ ¬ ReadLaw ⟨16, some 1⟩ (-1) 2 :=
  ⟨_, rfl, rfl, rfl, by decide, cut_short ⟨16, some 1⟩ (-1) (by decide) (by decide)⟩

end OneDriver.Adc
