import PiFire.Relay.Passage
import PiFire.Restart.Books

/-!
# What adds to the auger's total

The total of the time the auger was on is begun again by a first Startup, and added
to only where the auger is fed. Every other phase leaves it alone, whatever it does
to the auger.
-/

namespace PiFire

/-- The auger's total after an entry: a first Startup begins it again. -/
def totalAfter (entered : Option Entry) (total : ℚ) : ℚ :=
  if entered.any (·.mode == .startup) then 0 else total

@[simp]
theorem totalAfter_none (total : ℚ) : totalAfter none total = total := rfl

section Total

variable (t : Tick) (c : Control)

theorem enterMode_augerTotalOnS (m : Mode) :
    (enterMode t m c).augerTotalOnS = if m = .startup then 0 else c.augerTotalOnS := by
  have books := congrArg Books.augerTotalOnS (booksOf_enterMode t c m)
  refine books.trans ?_
  cases m <;> rfl

theorem Passes.augerTotalOnS {t : Tick} {c d : Control} {entered : Option Entry}
    (passes : Passes withoutFire t c entered d) :
    d.augerTotalOnS = totalAfter entered c.augerTotalOnS := by
  have seen := (passes.blind Control.augerTotalOnS fun _ => rfl).stays_or_enters rfl
  rcases seen with ⟨rfl, same⟩ | ⟨e, from_, rfl, same, into⟩
  · exact same
  · rw [into, enterMode_augerTotalOnS, same]
    simp [totalAfter]

theorem manualOutput_augerTotalOnS (str : String) (on : Bool) (num : ℚ) :
    (manualOutput t str on num c).augerTotalOnS = c.augerTotalOnS := by
  have switched (until_ : ℚ) (o : Output) :
      (manualSwitch t until_ o on c).augerTotalOnS = c.augerTotalOnS := by
    simp only [manualSwitch]
    split <;> rfl
  simp only [manualOutput]
  split
  · split
    · rfl
    · split
      · exact switched _ _
      · rfl
  · rfl

theorem nextCycle_augerTotalOnS : (nextCycle t c).augerTotalOnS = c.augerTotalOnS := by
  have same := congrArg Control.augerTotalOnS (withoutFeed_nextCycle t c)
  exact same

theorem act_augerTotalOnS {p : Phase} (notFeed : p ≠ .feed) :
    (p.act t c).augerTotalOnS = totalAfter (phaseEntry t p c) c.augerTotalOnS := by
  by_cases plans : p.plans = true ∨ p = .read ∨ p = .supervise
  · exact (passes_fire t c plans).augerTotalOnS
  · obtain ⟨works, notRead, notSupervise⟩ := by simpa only [not_or] using plans
    cases p with
    | command cmd =>
        cases cmd with
        | dutyCycle num =>
            simp only [Phase.act, handleCmd]
            split <;> rfl
        | manualOutput str flag num => exact manualOutput_augerTotalOnS t c str flag num
        | lidToggle =>
            have same := congrArg Control.augerTotalOnS (withoutLid_lidToggle t c)
            exact same
        | settingsChanged =>
            simp only [Phase.act, handleCmd, controlReloadSettings]
            split <;> rfl
        | controllerChanged => rfl
        | _ => exact absurd rfl works
    | lid =>
        have same := congrArg Control.augerTotalOnS (withoutLid_watchLid t c)
        exact same
    | feed => exact absurd rfl notFeed
    | fan =>
        have same := congrArg Control.augerTotalOnS (withoutFeed_runFan t c)
        exact same
    | expire =>
        simp only [Phase.act, expireManual]
        split <;> rfl
    | checkpoint => rfl
    | read => exact absurd rfl notRead
    | supervise => exact absurd rfl notSupervise
    | _ => exact absurd rfl works

end Total

end PiFire
