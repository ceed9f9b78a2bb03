import OneDriver.Amid
import OneDriver.Rtc.Running

set_option autoImplicit false

namespace OneDriver.Rtc

-- A tick of the running clock. Below 59 only the seconds register changes; at 59
-- it is set to zero and the carry may change any other register.
structure SecondsTick (tick : RtcState → RtcState) : Prop where
  below : ∀ (s : RtcState) (n : Nat), n < 59 → s.regs .rtcsec = bin2bcd n → tick s = s.write .rtcsec (bin2bcd (n + 1))
  rollover : ∀ s : RtcState, s.regs .rtcsec = bin2bcd 59 → (tick s).regs .rtcsec = 0

def AtSecond (n : Nat) (s : RtcState) : Prop := n < 60 ∧ s.regs .rtcsec = bin2bcd n

-- What the six reads of one pass find, each after one more gap of the schedule.
def readAmid (schedule : List (List (RtcState → RtcState))) (s : RtcState) : RtcTime where
  tmSec := ((after schedule 6 s).regs .rtcsec).toNat
  tmMin := ((after schedule 1 s).regs .rtcmin).toNat
  tmHour := ((after schedule 2 s).regs .rtchour).toNat
  tmMday := ((after schedule 3 s).regs .rtcdate).toNat
  tmMon := ((after schedule 4 s).regs .rtcmon).toNat
  tmYear := ((after schedule 5 s).regs .rtcyear).toNat

theorem amid_read_clock {α : Type} (k : RtcTime → RtcProg α) (schedule : List (List (RtcState → RtcState)))
    (s : RtcState) : (readClock >>= k).runAmid schedule s =
      (k (readAmid schedule s)).runAmid (schedule.drop 6) (after schedule 6 s) := by
  simp only [readClock, readb, Prog.then_then, Prog.amid_look, Prog.pure_then, readAmid, after_succ, after_zero,
    ← List.drop_one, List.drop_drop, List.drop_zero]

theorem second_zero_iff (n : Nat) (s : RtcState) (second : AtSecond n s) : (s.regs .rtcsec).toNat = 0 ↔ n = 0 := by
  obtain ⟨bound, stored⟩ := second
  have encoded := bin2bcd_toNat (n : Int) (by omega) (by omega)
  rw [stored, encoded]
  omega

-- While no tick comes at 59, only the seconds register moves.
theorem quiet_moves (ticks : List (RtcState → RtcState)) (n : Nat) (s : RtcState) (each : ∀ tick ∈ ticks, SecondsTick tick)
    (second : AtSecond n s) (room : n + ticks.length < 60) :
    AtSecond (n + ticks.length) (moved ticks s) ∧ ∀ reg, reg ≠ .rtcsec → (moved ticks s).regs reg = s.regs reg := by
  induction ticks generalizing n s with
  | nil => exact ⟨second, fun _ _ => rfl⟩
  | cons tick rest ih =>
      rw [List.length_cons] at room
      have stepped := (each tick (by simp)).below s n (by omega) second.2
      have next : AtSecond (n + 1) (tick s) := ⟨by omega, by rw [stepped, write_regs_same]; rfl⟩
      obtain ⟨reached, kept⟩ := ih (n + 1) (tick s) (fun other member => each other (by simp [member])) next (by omega)
      refine ⟨?_, fun reg other => ?_⟩
      · rw [List.length_cons, Nat.add_comm rest.length, ← Nat.add_assoc]
        exact reached
      · rw [moved_cons, kept reg other, stepped, write_regs_other _ _ _ _ other]

theorem running_moves (ticks : List (RtcState → RtcState)) (n : Nat) (s : RtcState)
    (each : ∀ tick ∈ ticks, SecondsTick tick) (second : AtSecond n s) : ∃ m, AtSecond m (moved ticks s) := by
  induction ticks generalizing n s with
  | nil => exact ⟨n, second⟩
  | cons tick rest ih =>
      have law := each tick (by simp)
      have later := fun m next => ih m (tick s) (fun other member => each other (by simp [member])) next
      by_cases last : n = 59
      · subst last
        exact later 0 ⟨by decide, law.rollover s second.2⟩
      · have bound := second.1
        have stepped := law.below s n (by omega) second.2
        exact later (n + 1) ⟨by omega, by rw [stepped, write_regs_same]; rfl⟩

theorem flatten_take_le {α : Type} (schedule : List (List α)) (m n : Nat) (le : m ≤ n) :
    (schedule.take m).flatten.length ≤ (schedule.take n).flatten.length := by
  obtain ⟨k, rfl⟩ := Nat.exists_eq_add_of_le le
  rw [List.take_add, List.flatten_append, List.length_append]
  exact Nat.le_add_right _ _

theorem part_mem {α : Type} (schedule : List (List α)) (m n : Nat) (x : α) (member : x ∈ ((schedule.drop m).take n).flatten) :
    x ∈ schedule.flatten := by
  obtain ⟨gap, part, inside⟩ := List.mem_flatten.mp member
  exact List.mem_flatten.mpr ⟨gap, List.mem_of_mem_drop (List.mem_of_mem_take part), inside⟩

theorem part_length {α : Type} (schedule : List (List α)) (m n : Nat) :
    ((schedule.drop m).take n).flatten.length ≤ schedule.flatten.length := by
  have split : schedule.flatten = (schedule.take m).flatten ++ ((schedule.drop m).take n).flatten ++
      ((schedule.drop m).drop n).flatten := by
    rw [← List.flatten_append, ← List.flatten_append, List.append_assoc, List.take_append_drop, List.take_append_drop]
  rw [split, List.length_append, List.length_append]
  omega

-- A pass with no rollover after its first read finds one register set.
theorem quiet_pass (schedule : List (List (RtcState → RtcState))) (n : Nat) (s : RtcState)
    (each : ∀ tick ∈ schedule.flatten, SecondsTick tick) (second : AtSecond n (after schedule 1 s))
    (room : n + ((schedule.drop 1).take 5).flatten.length < 60) :
    readAmid schedule s = rawClock (after schedule 6 s).regs := by
  have same : ∀ j, j ≤ 5 → ∀ reg, reg ≠ .rtcsec →
      (after schedule (1 + j) s).regs reg = (after schedule 1 s).regs reg := by
    intro j bound
    have shorter := flatten_take_le (schedule.drop 1) j 5 bound
    rw [after_add]
    refine (quiet_moves _ n _ (fun tick member => each tick ?_) second (by omega)).2
    exact part_mem schedule 1 j tick member
  have first := fun j bound reg other => (same j bound reg other).trans (same 5 (Nat.le_refl 5) reg other).symm
  simp only [readAmid, rawClock, first 0 (by decide) .rtcmin (by decide), first 1 (by decide) .rtchour (by decide),
    first 2 (by decide) .rtcdate (by decide), first 3 (by decide) .rtcmon (by decide),
    first 4 (by decide) .rtcyear (by decide)]

theorem gettime_of_pass (schedule : List (List (RtcState → RtcState))) (s : RtcState)
    (nonzero : (readAmid schedule s).tmSec ≠ 0) :
    ∃ t, rtcGettime.runAmid schedule s = .done (0, decodeTime (readAmid schedule s)) t := by
  rw [rtcGettime, amid_read_clock, retryGetTime, if_neg nonzero]
  exact ⟨_, rfl⟩

theorem gettime_of_retry (schedule : List (List (RtcState → RtcState))) (s : RtcState)
    (zero : (readAmid schedule s).tmSec = 0) :
    ∃ t, rtcGettime.runAmid schedule s =
      .done (0, decodeTime (readAmid (schedule.drop 6) (after schedule 6 s))) t := by
  rw [rtcGettime, amid_read_clock, retryGetTime, if_pos zero, amid_read_clock]
  exact ⟨_, rfl⟩

theorem first_pass_untorn (schedule : List (List (RtcState → RtcState))) (s : RtcState) (n : Nat)
    (running : AtSecond n s) (ticks : ∀ tick ∈ schedule.flatten, SecondsTick tick)
    (one : ((schedule.drop 1).take 5).flatten.length ≤ 1) (nonzero : (readAmid schedule s).tmSec ≠ 0) :
    readAmid schedule s = rawClock (after schedule 6 s).regs := by
  obtain ⟨m, second⟩ := running_moves (schedule.take 1).flatten n s
    (fun tick member => ticks tick (part_mem schedule 0 1 tick member)) running
  by_cases room : m + ((schedule.drop 1).take 5).flatten.length < 60
  · exact quiet_pass schedule m s ticks second room
  -- The one tick of the pass is the rollover, so the seconds are read as zero.
  · have bound := second.1
    obtain rfl : m = 59 := by omega
    obtain ⟨tick, only⟩ := List.length_eq_one_iff.mp (by omega : ((schedule.drop 1).take 5).flatten.length = 1)
    have law := ticks tick (part_mem schedule 1 5 tick (by rw [only]; exact List.mem_singleton_self tick))
    have last : after schedule 6 s = tick (after schedule 1 s) := by
      rw [after_add schedule 1 5 s, only, moved_cons, moved_nil]
    have zero := law.rollover (after schedule 1 s) second.2
    rw [← last] at zero
    exact absurd (by simp [readAmid, zero]) nonzero

-- The second pass starts at second zero, and the ticks that are left do not reach
-- the next rollover.
theorem second_pass_untorn (schedule : List (List (RtcState → RtcState))) (s : RtcState) (second : AtSecond 0 s)
    (ticks : ∀ tick ∈ schedule.flatten, SecondsTick tick) (few : schedule.flatten.length ≤ 2) :
    readAmid schedule s = rawClock (after schedule 6 s).regs := by
  have before := part_length schedule 0 1
  have inside := part_length schedule 1 5
  rw [List.drop_zero] at before
  have first := (quiet_moves (schedule.take 1).flatten 0 s
    (fun tick member => ticks tick (part_mem schedule 0 1 tick member)) second (by omega)).1
  exact quiet_pass schedule _ s ticks first (by omega)

theorem read_not_torn (schedule : List (List (RtcState → RtcState))) (s : RtcState) (n : Nat)
    (running : AtSecond n s) (ticks : ∀ tick ∈ schedule.flatten, SecondsTick tick)
    (firstPass : ((schedule.drop 1).take 5).flatten.length ≤ 1) (call : schedule.flatten.length ≤ 2) :
    ∃ tm t, rtcGettime.runAmid schedule s = .done (0, tm) t ∧
      ∃ m, m ≤ schedule.flatten.length ∧ tm = decodeTime (rawClock (moved (schedule.flatten.take m) s).regs) := by
  by_cases zero : (readAmid schedule s).tmSec = 0
  · obtain ⟨t, ran⟩ := gettime_of_retry schedule s zero
    obtain ⟨m, second⟩ := running_moves (schedule.take 6).flatten n s
      (fun tick member => ticks tick (part_mem schedule 0 6 tick member)) running
    have atZero : ((after schedule 6 s).regs .rtcsec).toNat = 0 := Int.ofNat_eq_zero.mp zero
    obtain rfl := (second_zero_iff m _ second).mp atZero
    have rest : (schedule.drop 6).flatten.length ≤ 2 := by
      have part := part_length schedule 6 (schedule.drop 6).length
      rw [List.take_length] at part
      omega
    have untorn := second_pass_untorn (schedule.drop 6) (after schedule 6 s) second
      (fun tick member => ticks tick (part_mem schedule 6 (schedule.drop 6).length tick (by rwa [List.take_length]))) rest
    obtain ⟨k, bound, instant⟩ := after_is_moved schedule (6 + 6) s
    rw [after_add] at instant
    exact ⟨_, t, ran, k, bound, by rw [untorn, ← instant]; rfl⟩
  · obtain ⟨t, ran⟩ := gettime_of_pass schedule s zero
    obtain ⟨k, bound, instant⟩ := after_is_moved schedule 6 s
    exact ⟨_, t, ran, k, bound, by rw [first_pass_untorn schedule s n running ticks firstPass zero, ← instant]⟩

theorem clock_ticks_seconds (hw : ClockHardware) : SecondsTick hw.tick where
  below := by
    intro s n bound stored
    have second : (shown s).tmSec = n := by
      have decoded := bcd2bin_bin2bcd (n : Int) (by omega) (by omega)
      simp [shown, decodeTime, rawClock, decode_stored, stored, decoded]
    have inside : (shown s).tmSec < 59 := by omega
    rw [ClockHardware.tick, if_pos inside, second]
  rollover := by
    intro s stored
    have last : ¬ (shown s).tmSec < 59 := by
      have decoded := bcd2bin_bin2bcd 59 (by decide) (by decide)
      simp [shown, decodeTime, rawClock, decode_stored, stored, decoded]
    have zero : bin2bcd 0 = 0 := by decide
    simp only [ClockHardware.tick, if_neg last]
    split_ifs <;> simp [midnight, firstOfMonth, zero]

-- 09:59:59 turns into 10:00:00 between the reads of the hour and of the date.
def beforeTen : RtcState := storedTime ⟨59, 59, 9, 13, 1, 117⟩ blankRtc

theorem rollover_read_untorn :
    ∃ tm t, rtcGettime.runAmid [[], [], [s3c2440Clock.tick]] beforeTen = .done (0, tm) t ∧
      ∃ m, m ≤ 1 ∧ tm = decodeTime (rawClock (moved ([s3c2440Clock.tick].take m) beforeTen).regs) := by
  refine read_not_torn [[], [], [s3c2440Clock.tick]] beforeTen 59 ⟨by decide, rfl⟩ ?_ (by decide) (by decide)
  intro tick member
  obtain rfl : tick = s3c2440Clock.tick := by simpa using member
  exact clock_ticks_seconds s3c2440Clock

end OneDriver.Rtc
