import PiFire.Ble.ChefIq
import PiFire.Transition.Run

/-!
# What a Chef iQ probe was last heard to say

The driver keeps one temperature for each of its two ports, and for both of them one time and
one flag. Beside it stands every packet that was received. The food temperature is always
one of the last 45 seconds; the ambient temperature is, as long as no packet has a food
temperature alone while an older ambient temperature is kept.
-/

namespace PiFire.Ble.ChefIq

open Transition

/-- `cq_t`: what the driver keeps of the packets. -/
structure Device where
  foodC : Option ℚ
  ambientC : Option ℚ
  valid : Bool
  battery : ℤ
  lastUpdate : ℚ
  deriving DecidableEq

/-- `pf_probe_sample` of one port. -/
inductive Sample where
  | celsius (value : Option ℚ)
  | invalid (value : Option ℚ)
  deriving DecidableEq

namespace Device

/-- `create`. -/
def create : Device := ⟨none, none, false, -1, 0⟩

/-- `on_disconnected`. -/
def onDisconnected (s : Device) : Device := { s with valid := false }

/-- The temperatures of a packet that has some. -/
def takeTemps (now : ℚ) (r : Reading) (s : Device) : Device :=
  { s with
    foodC := r.foodC.or s.foodC
    ambientC := r.ambientC.or s.ambientC
    valid := r.foodC.isSome
    lastUpdate := now }

/-- `on_value`. -/
def onValue (now : ℚ) (data : List UInt8) (s : Device) : Device :=
  match parse data with
  | some (true, r) =>
      let s := if r.hasTemps then s.takeTemps now r else s
      if r.hasBattery then { s with battery := r.batteryPct } else s
  | _ => s

/-- `read_`: the samples of the ports, and what it returns. -/
def read (now : ℚ) (nports : ℕ) (s : Device) : List Sample × ℤ :=
  let fresh := s.valid && decide (now - s.lastUpdate < 45)
  let food := if fresh then Sample.celsius s.foodC else .invalid s.foodC
  let ambient :=
    if fresh && s.ambientC.isSome then Sample.celsius s.ambientC else .invalid s.ambientC
  ([food, ambient].take nports, if fresh then 0 else -1)

end Device

/-- A packet, and when it came. -/
structure Heard where
  time : ℚ
  data : List UInt8
  deriving DecidableEq

/-- What the packet tells of each port. -/
def Heard.tells (h : Heard) : List (Option ℚ) :=
  match parse h.data with
  | some (true, r) => [r.foodC, r.ambientC]
  | _ => [none, none]

inductive Event where
  | packet (h : Heard)
  | disconnected
  | read (now : ℚ) (nports : ℕ)

/-- The driver, and all packets received so far. -/
structure Probe where
  device : Device
  heard : List Heard

def Probe.start : Probe := ⟨Device.create, []⟩

def happen (event : Event) (p : Probe) : Probe :=
  match event with
  | .packet h => ⟨p.device.onValue h.time h.data, h :: p.heard⟩
  | .disconnected => { p with device := p.device.onDisconnected }
  | .read _ _ => p

/-- The value was decoded for the port from a packet of the last 45 seconds. -/
def Probe.Told (p : Probe) (now : ℚ) (port : ℕ) (value : Option ℚ) : Prop :=
  value.isSome ∧ ∃ h ∈ p.heard, now - h.time < 45 ∧ h.tells[port]? = some value

/-- Every sample that a read reports as valid was told so. -/
def NotStale (event : Event) (p : Probe) : Prop :=
  match event with
  | .read now nports =>
      ∀ port < 2, ∀ value, (p.device.read now nports).1[port]? = some (.celsius value) →
        p.Told now port value
  | _ => True

/-- No packet tells the food temperature alone while an ambient temperature is kept. -/
def Whole (event : Event) (p : Probe) : Prop :=
  match event with
  | .packet h => ∀ food, h.tells = [some food, none] → p.device.ambientC = none
  | _ => True

/-- What is kept was told by the packet that the time is of. -/
structure Kept (p : Probe) : Prop where
  food : p.device.valid = true → p.device.foodC.isSome = true ∧
    ∃ h ∈ p.heard, h.time = p.device.lastUpdate ∧ h.tells[0]? = some p.device.foodC
  ambient : p.device.valid = true → p.device.ambientC.isSome = true →
    ∃ h ∈ p.heard, h.time = p.device.lastUpdate ∧ h.tells[1]? = some p.device.ambientC

variable {p : Probe}

theorem onValue_cases (h : Heard) (s : Device) :
    (∃ food ambient battery, h.tells = [food, ambient] ∧
      s.onValue h.time h.data =
        ⟨food.or s.foodC, ambient.or s.ambientC, food.isSome, battery, h.time⟩) ∨
    (∃ battery, h.tells = [none, none] ∧
      s.onValue h.time h.data = { s with battery := battery }) := by
  rw [Heard.tells, Device.onValue]
  split
  · next r found =>
      cases temps : r.hasTemps with
      | true =>
          left
          refine ⟨r.foodC, r.ambientC, if r.hasBattery then r.batteryPct else s.battery, rfl, ?_⟩
          cases r.hasBattery <;> rfl
      | false =>
          right
          obtain ⟨food, ambient⟩ := (temps_of_parse found).resolve_left (by simp [temps])
          refine ⟨if r.hasBattery then r.batteryPct else s.battery, by rw [food, ambient], ?_⟩
          cases r.hasBattery <;> rfl
  · exact Or.inr ⟨s.battery, rfl, rfl⟩

theorem kept_start : Kept Probe.start := ⟨nofun, nofun⟩

theorem Kept.happen (kept : Kept p) {event : Event} (whole : Whole event p) :
    Kept (happen event p) := by
  cases event with
  | disconnected => exact ⟨nofun, nofun⟩
  | read now nports => exact kept
  | packet h =>
      have here : h ∈ h :: p.heard := List.mem_cons_self
      rcases onValue_cases h p.device with
        ⟨food, ambient, battery, tells, taken⟩ | ⟨battery, -, same⟩
      · cases food with
        | none =>
            -- a packet without the food temperature makes the readings invalid
            constructor <;> simp [ChefIq.happen, taken]
        | some food =>
            cases ambient with
            | none =>
                have bare := whole food tells
                constructor <;> simp [ChefIq.happen, taken, bare, tells]
            | some ambient => constructor <;> simp [ChefIq.happen, taken, tells]
      · have later {i : ℕ} {value : Option ℚ}
            (told : ∃ h ∈ p.heard, h.time = p.device.lastUpdate ∧ h.tells[i]? = some value) :
            ∃ h' ∈ h :: p.heard, h'.time = p.device.lastUpdate ∧ h'.tells[i]? = some value := by
          obtain ⟨h', before, told⟩ := told
          exact ⟨h', List.mem_cons_of_mem h before, told⟩
        constructor
        · intro valid
          simp only [ChefIq.happen, same] at valid ⊢
          exact ⟨(kept.food valid).1, later (kept.food valid).2⟩
        · intro valid some_
          simp only [ChefIq.happen, same] at valid some_ ⊢
          exact later (kept.ambient valid some_)

theorem Kept.notStale (kept : Kept p) (event : Event) : NotStale event p := by
  cases event with
  | packet h => trivial
  | disconnected => trivial
  | read now nports =>
      have told {port : ℕ} {value : Option ℚ} (recent : now - p.device.lastUpdate < 45)
          (some_ : value.isSome = true)
          (held : ∃ h ∈ p.heard, h.time = p.device.lastUpdate ∧ h.tells[port]? = some value) :
          p.Told now port value := by
        obtain ⟨h, member, time, tells⟩ := held
        exact ⟨some_, h, member, by rwa [time], tells⟩
      intro port low value reported
      rw [Device.read, List.getElem?_take] at reported
      split at reported
      · cases fresh : p.device.valid && decide (now - p.device.lastUpdate < 45) with
        | false =>
            obtain rfl | rfl : port = 0 ∨ port = 1 := by omega
            · simp [fresh] at reported
            · simp [fresh] at reported
        | true =>
            rw [Bool.and_eq_true, decide_eq_true_eq] at fresh
            obtain ⟨valid, recent⟩ := fresh
            obtain rfl | rfl : port = 0 ∨ port = 1 := by omega
            · simp only [valid, recent, decide_true, Bool.and_true, if_true,
                List.getElem?_cons_zero, Option.some_inj, Sample.celsius.injEq] at reported
              subst reported
              exact told recent (kept.food valid).1 (kept.food valid).2
            · cases some_ : p.device.ambientC.isSome with
              | false => simp [some_] at reported
              | true =>
                  simp only [valid, recent, some_, decide_true, Bool.and_true, if_true,
                    List.getElem?_cons_succ, List.getElem?_cons_zero, Option.some_inj,
                    Sample.celsius.injEq] at reported
                  subst reported
                  exact told recent some_ (kept.ambient valid some_)
      · cases reported

theorem heard_of_run {events : List Event} {h : Heard} (known : h ∈ (run happen events p).heard) :
    h ∈ p.heard ∨ Event.packet h ∈ events := by
  induction events generalizing p with
  | nil => exact Or.inl known
  | cons event events ih =>
      rcases ih known with before | later
      · cases event with
        | packet h' =>
            rcases List.mem_cons.mp before with rfl | before
            · exact Or.inr List.mem_cons_self
            · exact Or.inl before
        | disconnected => exact Or.inl before
        | read now nports => exact Or.inl before
      · exact Or.inr (List.mem_cons_of_mem event later)

/-- The same packet again after forty seconds. -/
def Heard.again (h : Heard) : Heard := { h with time := h.time + 40 }

@[simp]
theorem tells_again (h : Heard) : h.again.tells = h.tells := rfl

/-- A packet, the same again, and a read another forty seconds later. -/
def afterwards (h : Heard) : List Event :=
  [.packet h, .packet h.again, .read (h.time + 80) 2]

theorem onValue_partly {h : Heard} {s : Device} {food ambient : ℚ}
    (tells : h.tells = [some food, none]) (held : s.ambientC = some ambient) :
    ∃ battery, s.onValue h.time h.data = ⟨some food, some ambient, true, battery, h.time⟩ := by
  rcases onValue_cases h s with ⟨food', ambient', battery, tells', taken⟩ | ⟨-, tells', -⟩
  · rw [tells] at tells'
    cases tells'
    exact ⟨battery, by rw [taken, held]; rfl⟩
  · rw [tells] at tells'
    cases tells'

/-- An ambient temperature that is kept over a packet without one can be reported when no
packet has told it for eighty seconds. -/
theorem stale_afterwards {h : Heard} (before : ∀ h' ∈ p.heard, h'.time ≤ h.time)
    (partly : ¬Whole (.packet h) p) : ¬Along happen NotStale (afterwards h) p := by
  obtain ⟨food, partly⟩ := not_forall.mp partly
  obtain ⟨tells, held⟩ := Classical.not_imp.mp partly
  obtain ⟨ambient, held⟩ := Option.ne_none_iff_exists'.mp held
  obtain ⟨b, first⟩ := onValue_partly tells held
  obtain ⟨b', second⟩ := onValue_partly ((tells_again h).trans tells)
    (congrArg Device.ambientC first)
  have reported : ((happen (.packet h.again) (happen (.packet h) p)).device.read
      (h.time + 80) 2).1[1]? = some (.celsius (some ambient)) := by
    have time : h.again.time = h.time + 40 := rfl
    have fresh : h.time + 80 - (h.time + 40) < 45 := by linarith
    simp only [happen, second]
    simp only [Device.read, time, fresh]
    rfl
  rintro ⟨-, -, notStale, -⟩
  obtain ⟨-, h', known, recent, told⟩ := notStale 1 (by omega) _ reported
  rcases List.mem_cons.mp known with rfl | known
  · rw [tells_again, tells] at told
    cases told
  · rcases List.mem_cons.mp known with rfl | known
    · rw [tells] at told
      cases told
    · have old := before h' known
      linarith

/-- In every run whose packets are whole, what a read reports as valid was told in the last
45 seconds; and a run that comes to a packet that is not whole can go on to a read that
reports what was told longer ago. -/
theorem readings_not_stale (events : List Event) :
    (Along happen Whole events Probe.start → Along happen NotStale events Probe.start) ∧
    ∀ h : Heard, (∀ h', .packet h' ∈ events → h'.time ≤ h.time) →
      ¬Whole (.packet h) (run happen events Probe.start) →
        ¬Along happen NotStale (events ++ afterwards h) Probe.start := by
  constructor
  · intro whole
    exact whole.strengthen Kept (fun _ _ kept whole => kept.happen whole)
      (fun event _ kept _ => kept.notStale event) kept_start
  · intro h before partly along
    refine stale_afterwards ?_ partly (along_append.mp along).2
    intro h' known
    rcases heard_of_run known with start | came
    · cases start
    · exact before h' came

/-- The ambient temperature is told once, then the food temperature alone. -/
theorem ambient_goes_stale : ¬∀ events, Along happen NotStale events Probe.start := by
  intro right
  have along := right (.packet ⟨0, [0x01, 0x50, 0xFA, 0x00, 0x7A, 0x02]⟩ ::
    afterwards ⟨40, [0x01, 0x50, 0xFB, 0x7F, 0x7A, 0x02]⟩)
  refine stale_afterwards ?_ ?_ along.2
  · intro h' known
    rw [List.mem_singleton.mp known]
    decide
  · intro whole
    exact absurd (whole (317 / 5) (by decide +kernel)) (by decide +kernel)

end PiFire.Ble.ChefIq
