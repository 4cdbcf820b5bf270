import PiFire.Parsing.Reader
import Mathlib.Algebra.Order.Field.Rat
import Mathlib.Tactic.FieldSimp
import Mathlib.Tactic.Linarith
import Mathlib.Tactic.NormNum

/-!
# Chef iQ packets

A probe broadcasts its temperatures in one of three layouts, which share a parser. A byte
that is read outside the packet is a failure of the whole parse here, and it never is. What
a probe sends in each layout is read back as it was sent, and a packet that was cut short
gives the values that are there.
-/

namespace PiFire.Ble.ChefIq

open Parsing

/-- `MAX_PROBE_PAYLOAD`. -/
def maxProbePayload : ℕ := 18

/-- `pf_chefiq_reading`; a temperature that is not a number is `none`. -/
@[ext]
structure Reading where
  hasTemps : Bool
  foodC : Option ℚ
  ambientC : Option ℚ
  tipC : List (Option ℚ)
  ntips : ℕ
  hasBattery : Bool
  batteryPct : ℕ
  socC : ℕ
  packetType : ℕ
  verMajor : ℕ
  verMinor : ℕ
  verPatch : ℕ
  deriving DecidableEq

/-- Nothing read yet. -/
def Reading.blank : Reading :=
  ⟨false, none, none, [none, none, none, none], 0, false, 0, 0, 0, 0, 0, 0⟩

/-- A temperature in tenths, dropped where it is out of range. -/
def celsius (v : ℤ) : Option ℚ :=
  let c : ℚ := v / 10
  if c < -40 ∨ 600 < c then none else some c

/-- `s16_tenths` of the two bytes from a place on. -/
def s16Tenths (msg : List UInt8) (p : ℕ) : Option (Option ℚ) := do
  let lo ← msg[p]?
  let hi ← msg[p + 1]?
  return celsius (signed16 lo hi)

/-- A temperature where its bytes are there, else what there was. -/
def readTenths (msg : List UInt8) (p : ℕ) (old : Option ℚ) : Option (Option ℚ) :=
  if p + 2 ≤ msg.length then s16Tenths msg p else some old

/-- The tips from the `i`th on, so many at most, as far as their bytes are there. -/
def readTips (msg : List UInt8) (tips : ℕ) : ℕ → ℕ → Reading → Option Reading
  | 0, _, out => some out
  | left + 1, i, out =>
      if tips + i * 2 + 2 ≤ msg.length then do
        let c ← s16Tenths msg (tips + i * 2)
        readTips msg tips left (i + 1) { out with tipC := out.tipC.set i c, ntips := i + 1 }
      else some out

/-- The battery and the chip's temperature are known. -/
def Reading.charged (out : Reading) (battery soc : UInt8) : Reading :=
  { out with hasBattery := true, batteryPct := battery.toNat, socC := soc.toNat }

/-- They stand in the two bytes at a place. -/
def readBattery (msg : List UInt8) (p : ℕ) (out : Reading) : Option Reading := do
  let battery ← msg[p]?
  let soc ← msg[p + 1]?
  return out.charged battery soc

/-- The temperatures at the places of a layout. -/
def readTemps (msg : List UInt8) (amb food tips ntips : ℕ) (out : Reading) : Option Reading := do
  let ambientC ← readTenths msg amb out.ambientC
  let foodC ← readTenths msg food out.foodC
  let out ← readTips msg tips ntips 0 { out with ambientC := ambientC, foodC := foodC }
  return { out with hasTemps := true }

/-- The first two bytes: what packet it is, of which version. -/
def readHeader (b0 b1 : UInt8) : Reading :=
  { Reading.blank with
    packetType := b0.toNat &&& 0x0F
    verMajor := b1.toNat >>> 4
    verMinor := b1.toNat &&& 0x0F
    verPatch := b0.toNat >>> 4 }

/-- The layout that the version stands for. -/
def format (out : Reading) : ℕ :=
  if 3 ≤ out.verMajor then 3 else if out.verMajor = 2 then 2 else 1

/-- The rest of a packet with temperatures. -/
def parseTemps (msg : List UInt8) (out : Reading) : Option (Bool × Reading) :=
  match format out with
  | 3 => (readTemps msg 2 4 6 4 out).map (true, ·)
  | 2 =>
      if msg.length < 14 then some (false, out)
      else ((readBattery msg 2 out).bind (readTemps msg 4 6 8 3)).map (true, ·)
  | _ =>
      if msg.length < 14 then some (false, out)
      else ((readBattery msg 8 out).bind (readTemps msg 12 10 0 0)).map (true, ·)

/-- `pf_chefiq_parse`: whether it is a probe's packet, and what was read. A read outside
the packet makes it fail. -/
def parse (msg : List UInt8) : Option (Bool × Reading) :=
  if msg.length < 2 ∨ maxProbePayload < msg.length then some (false, Reading.blank)
  else do
    let b0 ← msg[0]?
    let b1 ← msg[1]?
    let out := readHeader b0 b1
    if out.packetType = 1 then parseTemps msg out
    else if out.packetType = 3 then
      if format out = 3 ∧ 10 ≤ msg.length then (readBattery msg 8 out).map (true, ·)
      else some (true, out)
    else some (out.packetType = 0, out)

/-! ## Reading inside the packet -/

/-- The temperature of the two bytes at a place, if they are there. -/
def tenthsAt (msg : List UInt8) (p : ℕ) : Option ℚ := (s16Tenths msg p).join

variable {msg : List UInt8}

theorem s16Tenths_eq {p : ℕ} (inside : p + 2 ≤ msg.length) :
    s16Tenths msg p = some (tenthsAt msg p) := by
  have lo : p < msg.length := by omega
  have hi : p + 1 < msg.length := by omega
  simp [tenthsAt, s16Tenths, List.getElem?_eq_getElem lo, List.getElem?_eq_getElem hi]

theorem tenthsAt_outside {p : ℕ} (outside : ¬p + 2 ≤ msg.length) : tenthsAt msg p = none := by
  have none_ : msg[p + 1]? = none := List.getElem?_eq_none (by omega)
  cases lo : msg[p]? <;> simp [tenthsAt, s16Tenths, none_, lo]

theorem readTenths_eq (p : ℕ) : readTenths msg p none = some (tenthsAt msg p) := by
  rw [readTenths]
  split
  · next inside => exact s16Tenths_eq inside
  · next outside => rw [tenthsAt_outside outside]

theorem readBattery_eq {p : ℕ} (inside : p + 2 ≤ msg.length) (out : Reading) :
    readBattery msg p out = some (out.charged (msg[p]?.getD 0) (msg[p + 1]?.getD 0)) := by
  have lo : p < msg.length := by omega
  have hi : p + 1 < msg.length := by omega
  simp [readBattery, List.getElem?_eq_getElem lo, List.getElem?_eq_getElem hi]

/-- The tips from the `i`th on, so many at most, over those that were set before. -/
def tipsFrom (msg : List UInt8) (tips i left : ℕ) (tipC : List (Option ℚ)) : List (Option ℚ) :=
  tipC.mapIdx fun j c => if i ≤ j ∧ j < i + left then tenthsAt msg (tips + j * 2) else c

theorem tipsFrom_zero (tips i : ℕ) (tipC : List (Option ℚ)) :
    tipsFrom msg tips i 0 tipC = tipC := by
  apply List.ext_getElem?
  intro j
  have never : ¬(i ≤ j ∧ j < i) := by omega
  simp [tipsFrom, List.getElem?_mapIdx, never]

theorem tipsFrom_set (tips i left : ℕ) (tipC : List (Option ℚ)) :
    tipsFrom msg tips (i + 1) left (tipC.set i (tenthsAt msg (tips + i * 2))) =
      tipsFrom msg tips i (left + 1) tipC := by
  apply List.ext_getElem?
  intro j
  simp only [tipsFrom, List.getElem?_mapIdx]
  by_cases here : i = j
  · subst here
    rw [List.getElem?_set_self']
    cases tipC[i]? <;> simp
  · have bounds : (i + 1 ≤ j ∧ j < i + 1 + left) ↔ (i ≤ j ∧ j < i + (left + 1)) := by omega
    simp only [List.getElem?_set_ne here, bounds]

theorem tipsFrom_outside {tips i : ℕ} (outside : ¬tips + i * 2 + 2 ≤ msg.length) (left : ℕ)
    {tipC : List (Option ℚ)} (unset : ∀ j c, i ≤ j → tipC[j]? = some c → c = none) :
    tipsFrom msg tips i left tipC = tipC := by
  apply List.ext_getElem?
  intro j
  rw [tipsFrom, List.getElem?_mapIdx]
  cases stored : tipC[j]? with
  | none => rfl
  | some c =>
      rw [Option.map_some]
      split
      · next between => rw [tenthsAt_outside (by omega), unset j c between.1 stored]
      · rfl

theorem readTips_eq (tips : ℕ) {left i : ℕ} {out : Reading} (count : out.ntips = i)
    (there : i ≤ (msg.length - tips) / 2)
    (unset : ∀ j c, i ≤ j → out.tipC[j]? = some c → c = none) :
    readTips msg tips left i out = some { out with
      tipC := tipsFrom msg tips i left out.tipC
      ntips := min (i + left) ((msg.length - tips) / 2) } := by
  induction left generalizing i out with
  | zero => rw [readTips, tipsFrom_zero, Nat.add_zero, min_eq_left there, ← count]
  | succ left ih =>
      rw [readTips]
      split
      · next inside =>
          rw [s16Tenths_eq inside, Option.bind_eq_bind, Option.bind_some]
          refine (ih (i := i + 1) rfl (by omega) ?_).trans ?_
          · intro j c later
            rw [List.getElem?_set_ne (by omega)]
            exact unset j c (by omega)
          · rw [tipsFrom_set, Nat.add_assoc, Nat.add_comm 1 left]
      · next outside =>
          have all : min (i + (left + 1)) ((msg.length - tips) / 2) = i := by omega
          rw [tipsFrom_outside outside (left + 1) unset, all, ← count]

/-- No temperature was read into it. -/
structure Reading.Unread (out : Reading) : Prop where
  ambientC : out.ambientC = none
  foodC : out.foodC = none
  tipC : out.tipC = [none, none, none, none]
  ntips : out.ntips = 0

theorem readTemps_eq (amb food tips ntips : ℕ) {out : Reading} (unread : out.Unread) :
    readTemps msg amb food tips ntips out = some { out with
      hasTemps := true
      ambientC := tenthsAt msg amb
      foodC := tenthsAt msg food
      tipC := tipsFrom msg tips 0 ntips [none, none, none, none]
      ntips := min ntips ((msg.length - tips) / 2) } := by
  have unset (j : ℕ) (c : Option ℚ) (stored : out.tipC[j]? = some c) : c = none := by
    rw [unread.tipC] at stored
    have member := List.mem_of_getElem? stored
    simpa using member
  have loop : readTips msg tips ntips 0
      { out with ambientC := tenthsAt msg amb, foodC := tenthsAt msg food } = _ :=
    readTips_eq tips unread.ntips (Nat.zero_le _) fun j c _ => unset j c
  rw [readTemps, unread.ambientC, unread.foodC, readTenths_eq, readTenths_eq]
  simp only [Option.bind_eq_bind, Option.bind_some, loop]
  rw [unread.tipC, Nat.zero_add]
  rfl

theorem readHeader_unread (b0 b1 : UInt8) : (readHeader b0 b1).Unread := ⟨rfl, rfl, rfl, rfl⟩

theorem Reading.Unread.charged {out : Reading} (unread : out.Unread) (battery soc : UInt8) :
    (out.charged battery soc).Unread :=
  ⟨unread.ambientC, unread.foodC, unread.tipC, unread.ntips⟩

theorem parseTemps_inside {out : Reading} (unread : out.Unread) :
    ∃ result, parseTemps msg out = some result := by
  rw [parseTemps]
  split
  · rw [readTemps_eq 2 4 6 4 unread]
    exact ⟨_, rfl⟩
  · split
    · exact ⟨_, rfl⟩
    · rw [readBattery_eq (by omega), Option.bind_some,
        readTemps_eq 4 6 8 3 (unread.charged _ _)]
      exact ⟨_, rfl⟩
  · split
    · exact ⟨_, rfl⟩
    · rw [readBattery_eq (by omega), Option.bind_some,
        readTemps_eq 12 10 0 0 (unread.charged _ _)]
      exact ⟨_, rfl⟩

theorem parse_inside (msg : List UInt8) : ∃ result, parse msg = some result := by
  rw [parse]
  split
  · exact ⟨_, rfl⟩
  · next bounds =>
      have first : 0 < msg.length := by omega
      have second : 1 < msg.length := by omega
      rw [List.getElem?_eq_getElem first, List.getElem?_eq_getElem second]
      simp only [Option.bind_eq_bind, Option.bind_some]
      split
      · exact parseTemps_inside (readHeader_unread _ _)
      · split
        · split
          · rw [readBattery_eq (by omega)]
            exact ⟨_, rfl⟩
          · exact ⟨_, rfl⟩
        · exact ⟨_, rfl⟩

theorem hasTemps_of_parseTemps {out found : Reading} (unread : out.Unread)
    (parsed : parseTemps msg out = some (true, found)) : found.hasTemps = true := by
  rw [parseTemps] at parsed
  split at parsed
  · rw [readTemps_eq 2 4 6 4 unread] at parsed
    cases parsed
    rfl
  · split at parsed
    · cases parsed
    · rw [readBattery_eq (by omega), Option.bind_some,
        readTemps_eq 4 6 8 3 (unread.charged _ _)] at parsed
      cases parsed
      rfl
  · split at parsed
    · cases parsed
    · rw [readBattery_eq (by omega), Option.bind_some,
        readTemps_eq 12 10 0 0 (unread.charged _ _)] at parsed
      cases parsed
      rfl

theorem temps_of_parse {found : Reading} (parsed : parse msg = some (true, found)) :
    found.hasTemps = true ∨ found.foodC = none ∧ found.ambientC = none := by
  rw [parse] at parsed
  split at parsed
  · cases parsed
  · next bounds =>
      have first : 0 < msg.length := by omega
      have second : 1 < msg.length := by omega
      rw [List.getElem?_eq_getElem first, List.getElem?_eq_getElem second] at parsed
      simp only [Option.bind_eq_bind, Option.bind_some] at parsed
      split at parsed
      · exact Or.inl (hasTemps_of_parseTemps (readHeader_unread _ _) parsed)
      · right
        split at parsed
        · split at parsed
          · rw [readBattery_eq (by omega)] at parsed
            cases parsed
            exact ⟨rfl, rfl⟩
          · cases parsed
            exact ⟨rfl, rfl⟩
        · obtain ⟨-, rfl⟩ := Prod.mk.inj (Option.some_inj.mp parsed)
          exact ⟨rfl, rfl⟩

/-! ## What a probe sends -/

/-- A temperature in range, in tenths. -/
structure Temperature where
  tenths : ℤ
  low : -400 ≤ tenths
  high : tenths ≤ 6000

def Temperature.bytes (t : Temperature) : List UInt8 := [lowByte t.tenths, highByte t.tenths]

def Temperature.celsius (t : Temperature) : ℚ := t.tenths / 10

/-- A version as the first two bytes have room for it. -/
structure Version where
  major : Fin 16
  minor : Fin 16
  patch : Fin 16

/-- The first two bytes of a packet. -/
def Version.bytes (v : Version) (packetType : ℕ) : List UInt8 :=
  [nibbles v.patch packetType, nibbles v.major v.minor]

/-- What those two bytes say. -/
def Version.reading (v : Version) (packetType : ℕ) : Reading :=
  { Reading.blank with
    packetType := packetType
    verMajor := v.major
    verMinor := v.minor
    verPatch := v.patch }

theorem Version.unread (v : Version) (packetType : ℕ) : (v.reading packetType).Unread :=
  ⟨rfl, rfl, rfl, rfl⟩

/-- A version 3 packet with temperatures, and what may follow them. -/
structure Temps3 where
  version : Version
  ambient : Temperature
  food : Temperature
  tip1 : Temperature
  tip2 : Temperature
  tip3 : Temperature
  tip4 : Temperature
  rest : List UInt8
  layout : 3 ≤ version.major.val
  fits : rest.length ≤ 4

/-- A version 3 status packet. -/
structure Status3 where
  version : Version
  before : Fin 6 → UInt8
  battery : UInt8
  soc : UInt8
  rest : List UInt8
  layout : 3 ≤ version.major.val
  fits : rest.length ≤ 8

/-- A version 2 packet. -/
structure Temps2 where
  version : Version
  battery : UInt8
  soc : UInt8
  ambient : Temperature
  food : Temperature
  tip1 : Temperature
  tip2 : Temperature
  tip3 : Temperature
  rest : List UInt8
  layout : version.major.val = 2
  fits : rest.length ≤ 4

/-- A packet of the time before. -/
structure Legacy where
  version : Version
  mac : Fin 6 → UInt8
  battery : UInt8
  soc : UInt8
  food : Temperature
  ambient : Temperature
  rest : List UInt8
  layout : version.major.val < 2
  fits : rest.length ≤ 4

/-- `ambient[2:4] food[4:6] tip1..4[6:14]`. -/
def Temps3.bytes (p : Temps3) : List UInt8 :=
  p.version.bytes 1 ++ p.ambient.bytes ++ p.food.bytes ++ p.tip1.bytes ++ p.tip2.bytes ++
    p.tip3.bytes ++ p.tip4.bytes ++ p.rest

/-- `battery and SoC temperature come in the status packet at [8] and [9]`. -/
def Status3.bytes (p : Status3) : List UInt8 :=
  p.version.bytes 3 ++ List.ofFn p.before ++ [p.battery, p.soc] ++ p.rest

/-- `battery[2] soc[3] ambient[4:6] food[6:8] tip1..3[8:14]`. -/
def Temps2.bytes (p : Temps2) : List UInt8 :=
  p.version.bytes 1 ++ [p.battery, p.soc] ++ p.ambient.bytes ++ p.food.bytes ++ p.tip1.bytes ++
    p.tip2.bytes ++ p.tip3.bytes ++ p.rest

/-- `mac[2:8] battery[8] soc[9] food[10:12] ambient[12:14]`. -/
def Legacy.bytes (p : Legacy) : List UInt8 :=
  p.version.bytes 1 ++ List.ofFn p.mac ++ [p.battery, p.soc] ++ p.food.bytes ++
    p.ambient.bytes ++ p.rest

/-- The reading of which the first `n` bytes arrived. -/
def Temps3.cut (p : Temps3) (n : ℕ) : Reading :=
  let there (at_ : ℕ) (t : Temperature) : Option ℚ := if at_ + 2 ≤ n then some t.celsius else none
  { p.version.reading 1 with
    hasTemps := true
    ambientC := there 2 p.ambient
    foodC := there 4 p.food
    tipC := [there 6 p.tip1, there 8 p.tip2, there 10 p.tip3, there 12 p.tip4]
    ntips := min 4 ((n - 6) / 2) }

def Temps3.reading (p : Temps3) : Reading :=
  { p.version.reading 1 with
    hasTemps := true
    ambientC := some p.ambient.celsius
    foodC := some p.food.celsius
    tipC := [some p.tip1.celsius, some p.tip2.celsius, some p.tip3.celsius, some p.tip4.celsius]
    ntips := 4 }

def Status3.reading (p : Status3) : Reading := (p.version.reading 3).charged p.battery p.soc

def Temps2.reading (p : Temps2) : Reading :=
  { (p.version.reading 1).charged p.battery p.soc with
    hasTemps := true
    ambientC := some p.ambient.celsius
    foodC := some p.food.celsius
    tipC := [some p.tip1.celsius, some p.tip2.celsius, some p.tip3.celsius, none]
    ntips := 3 }

def Legacy.reading (p : Legacy) : Reading :=
  { (p.version.reading 1).charged p.battery p.soc with
    hasTemps := true
    ambientC := some p.ambient.celsius
    foodC := some p.food.celsius }

/-! ## Reading it back -/

theorem celsius_tenths (t : Temperature) : celsius t.tenths = some t.celsius := by
  have low : (-400 : ℚ) ≤ t.tenths := by exact_mod_cast t.low
  have high : (t.tenths : ℚ) ≤ 6000 := by exact_mod_cast t.high
  have inside : ¬((t.tenths : ℚ) / 10 < -40 ∨ 600 < (t.tenths : ℚ) / 10) := by
    rintro (cold | hot) <;> linarith
  exact if_neg inside

theorem tenthsAt_sent (t : Temperature) {p : ℕ} (lo : msg[p]? = some (lowByte t.tenths))
    (hi : msg[p + 1]? = some (highByte t.tenths)) : tenthsAt msg p = some t.celsius := by
  have low := t.low
  have high := t.high
  simp [tenthsAt, s16Tenths, lo, hi, signed16_bytes (v := t.tenths) (by omega) (by omega),
    celsius_tenths]

theorem tenthsAt_take (n p : ℕ) :
    tenthsAt (msg.take n) p = if p + 2 ≤ n then tenthsAt msg p else none := by
  split
  · next inside =>
      have lo : p < n := by omega
      have hi : p + 1 < n := by omega
      simp [tenthsAt, s16Tenths, lo, hi]
  · next outside =>
      apply tenthsAt_outside
      rw [List.length_take]
      omega

theorem readHeader_sent (v : Version) {packetType : ℕ} (small : packetType < 16) :
    readHeader (nibbles v.patch packetType) (nibbles v.major v.minor) = v.reading packetType := by
  rw [readHeader, nibbles_and v.patch.isLt small, nibbles_shift v.patch.isLt small,
    nibbles_and v.major.isLt v.minor.isLt, nibbles_shift v.major.isLt v.minor.isLt]
  rfl

section Header

variable {v : Version} (short : msg.length ≤ maxProbePayload)
include short

theorem parse_sent {packetType : ℕ} (small : packetType < 16)
    (first : msg[0]? = some (nibbles v.patch packetType))
    (second : msg[1]? = some (nibbles v.major v.minor)) :
    parse msg =
      if packetType = 1 then parseTemps msg (v.reading packetType)
      else if packetType = 3 then
        if format (v.reading packetType) = 3 ∧ 10 ≤ msg.length then
          (readBattery msg 8 (v.reading packetType)).map (true, ·)
        else some (true, v.reading packetType)
      else some (packetType = 0, v.reading packetType) := by
  obtain ⟨long, -⟩ := List.getElem?_eq_some_iff.mp second
  rw [parse, if_neg (by omega), first, second]
  simp only [Option.bind_eq_bind, Option.bind_some, readHeader_sent v small]
  rfl

theorem parse_temps (first : msg[0]? = some (nibbles v.patch 1))
    (second : msg[1]? = some (nibbles v.major v.minor)) :
    parse msg = parseTemps msg (v.reading 1) := by
  rw [parse_sent short (by omega) first second, if_pos rfl]

theorem parse_status (first : msg[0]? = some (nibbles v.patch 3))
    (second : msg[1]? = some (nibbles v.major v.minor)) (layout : format (v.reading 3) = 3)
    (long : 10 ≤ msg.length) :
    parse msg = (readBattery msg 8 (v.reading 3)).map (true, ·) := by
  rw [parse_sent short (by omega) first second, if_neg (by omega), if_pos rfl,
    if_pos ⟨layout, long⟩]

end Header

theorem format_version (v : Version) (packetType : ℕ) :
    format (v.reading packetType) =
      if 3 ≤ v.major.val then 3 else if v.major.val = 2 then 2 else 1 := rfl

theorem Temps3.length_bytes (p : Temps3) : p.bytes.length = 14 + p.rest.length := by
  simp [Temps3.bytes, Version.bytes, Temperature.bytes]
  omega

theorem parse_cut (p : Temps3) {n : ℕ} (header : 2 ≤ n) :
    parse (p.bytes.take n) = some (true, p.cut n) := by
  have first : (p.bytes.take n)[0]? = some (nibbles p.version.patch 1) := by
    rw [List.getElem?_take_of_lt (by omega)]
    rfl
  have second : (p.bytes.take n)[1]? = some (nibbles p.version.major p.version.minor) := by
    rw [List.getElem?_take_of_lt (by omega)]
    rfl
  have short : (p.bytes.take n).length ≤ maxProbePayload := by
    have fits := p.fits
    rw [List.length_take, p.length_bytes, maxProbePayload]
    omega
  have layout : format (p.version.reading 1) = 3 := if_pos p.layout
  have count : min 4 (((p.bytes.take n).length - 6) / 2) = min 4 ((n - 6) / 2) := by
    rw [List.length_take, p.length_bytes]
    omega
  have ambient : tenthsAt p.bytes 2 = some p.ambient.celsius := tenthsAt_sent _ rfl rfl
  have food : tenthsAt p.bytes 4 = some p.food.celsius := tenthsAt_sent _ rfl rfl
  have tip1 : tenthsAt p.bytes 6 = some p.tip1.celsius := tenthsAt_sent _ rfl rfl
  have tip2 : tenthsAt p.bytes 8 = some p.tip2.celsius := tenthsAt_sent _ rfl rfl
  have tip3 : tenthsAt p.bytes 10 = some p.tip3.celsius := tenthsAt_sent _ rfl rfl
  have tip4 : tenthsAt p.bytes 12 = some p.tip4.celsius := tenthsAt_sent _ rfl rfl
  rw [parse_temps short first second, parseTemps, layout]
  simp only [readTemps_eq 2 4 6 4 (p.version.unread 1), Option.map_some, count]
  simp [tipsFrom, tenthsAt_take, ambient, food, tip1, tip2, tip3, tip4, Temps3.cut]

theorem Temps3.parse_bytes (p : Temps3) : parse p.bytes = some (true, p.reading) := by
  have long := p.length_bytes
  have whole := parse_cut p (by omega : 2 ≤ p.bytes.length)
  have reading : p.cut p.bytes.length = p.reading := by
    have places : 14 ≤ p.bytes.length := by omega
    have count : min 4 ((p.bytes.length - 6) / 2) = 4 := by omega
    simp [Temps3.cut, Temps3.reading, count, show 4 ≤ p.bytes.length by omega,
      show 6 ≤ p.bytes.length by omega, show 8 ≤ p.bytes.length by omega,
      show 10 ≤ p.bytes.length by omega, show 12 ≤ p.bytes.length by omega, places]
  rwa [List.take_length, reading] at whole

theorem Status3.parse_bytes (p : Status3) : parse p.bytes = some (true, p.reading) := by
  have length : p.bytes.length = 10 + p.rest.length := by
    simp [Status3.bytes, Version.bytes]
    omega
  have short : p.bytes.length ≤ maxProbePayload := by
    have fits := p.fits
    rw [length, maxProbePayload]
    omega
  have layout : format (p.version.reading 3) = 3 := if_pos p.layout
  have battery : p.bytes[8]? = some p.battery := rfl
  have soc : p.bytes[9]? = some p.soc := rfl
  rw [parse_status short rfl rfl layout (by omega), readBattery_eq (by omega), battery, soc]
  rfl

theorem Temps2.parse_bytes (p : Temps2) : parse p.bytes = some (true, p.reading) := by
  have length : p.bytes.length = 14 + p.rest.length := by
    simp [Temps2.bytes, Version.bytes, Temperature.bytes]
    omega
  have short : p.bytes.length ≤ maxProbePayload := by
    have fits := p.fits
    rw [length, maxProbePayload]
    omega
  have layout : format (p.version.reading 1) = 2 := by
    rw [format_version, if_neg (by rw [p.layout]; omega), if_pos p.layout]
  have battery : p.bytes[2]? = some p.battery := rfl
  have soc : p.bytes[3]? = some p.soc := rfl
  have ambient : tenthsAt p.bytes 4 = some p.ambient.celsius := tenthsAt_sent _ rfl rfl
  have food : tenthsAt p.bytes 6 = some p.food.celsius := tenthsAt_sent _ rfl rfl
  have tip1 : tenthsAt p.bytes 8 = some p.tip1.celsius := tenthsAt_sent _ rfl rfl
  have tip2 : tenthsAt p.bytes 10 = some p.tip2.celsius := tenthsAt_sent _ rfl rfl
  have tip3 : tenthsAt p.bytes 12 = some p.tip3.celsius := tenthsAt_sent _ rfl rfl
  have count : min 3 ((p.bytes.length - 8) / 2) = 3 := by omega
  rw [parse_temps short rfl rfl, parseTemps, layout]
  simp only [if_neg (by omega : ¬p.bytes.length < 14),
    readBattery_eq (by omega : 2 + 2 ≤ p.bytes.length), Option.bind_some,
    readTemps_eq 4 6 8 3 ((p.version.unread 1).charged _ _), Option.map_some, count]
  simp [tipsFrom, battery, soc, ambient, food, tip1, tip2, tip3, Temps2.reading]

theorem Legacy.parse_bytes (p : Legacy) : parse p.bytes = some (true, p.reading) := by
  have length : p.bytes.length = 14 + p.rest.length := by
    simp [Legacy.bytes, Version.bytes, Temperature.bytes]
    omega
  have short : p.bytes.length ≤ maxProbePayload := by
    have fits := p.fits
    rw [length, maxProbePayload]
    omega
  have layout : format (p.version.reading 1) = 1 := by
    have old := p.layout
    rw [format_version, if_neg (by omega), if_neg (by omega)]
  have battery : p.bytes[8]? = some p.battery := rfl
  have soc : p.bytes[9]? = some p.soc := rfl
  have food : tenthsAt p.bytes 10 = some p.food.celsius := tenthsAt_sent _ rfl rfl
  have ambient : tenthsAt p.bytes 12 = some p.ambient.celsius := tenthsAt_sent _ rfl rfl
  rw [parse_temps short rfl rfl, parseTemps, layout]
  simp only [if_neg (by omega : ¬p.bytes.length < 14),
    readBattery_eq (by omega : 8 + 2 ≤ p.bytes.length), Option.bind_some,
    readTemps_eq 12 10 0 0 ((p.version.unread 1).charged _ _), Option.map_some]
  simp [tipsFrom_zero, battery, soc, ambient, food, Legacy.reading, Version.reading, Reading.blank,
    Reading.charged]

/-- A packet in one of the three layouts. -/
inductive Packet
  | temps3 (p : Temps3)
  | status3 (p : Status3)
  | temps2 (p : Temps2)
  | legacy (p : Legacy)

def Packet.bytes : Packet → List UInt8
  | temps3 p => p.bytes
  | status3 p => p.bytes
  | temps2 p => p.bytes
  | legacy p => p.bytes

def Packet.reading : Packet → Reading
  | temps3 p => p.reading
  | status3 p => p.reading
  | temps2 p => p.reading
  | legacy p => p.reading

/-- Every packet is read inside its bytes, a reading that was sent in any of the layouts is
read back, and of a version 3 packet that was cut short the values are read whose bytes all
arrived. -/
theorem packets_read_back :
    (∀ msg, ∃ result, parse msg = some result) ∧
    (∀ packet : Packet, parse packet.bytes = some (true, packet.reading)) ∧
    ∀ (p : Temps3) (n : ℕ), parse (p.bytes.take n) =
      some (if 2 ≤ n then (true, p.cut n) else (false, Reading.blank)) := by
  refine ⟨parse_inside, ?_, ?_⟩
  · rintro (p | p | p | p)
    · exact p.parse_bytes
    · exact p.parse_bytes
    · exact p.parse_bytes
    · exact p.parse_bytes
  · intro p n
    split
    · next header => exact parse_cut p header
    · next short =>
        rw [parse, if_pos]
        left
        rw [List.length_take]
        omega

/-- A packet as a probe sent it: the fourth tip has no sensor. -/
example : (parse [0x01, 0x80, 0xE7, 0x00, 0xEA, 0x00, 0xEA, 0x00, 0xEC, 0x00, 0xEC, 0x00, 0xFB,
    0x7F, 0xE7, 0x00, 0x45, 0xF2]).map (fun found => (found.2.foodC, found.2.tipC)) =
      some (some (117 / 5), [some (117 / 5), some (118 / 5), some (118 / 5), none]) := by
  decide +kernel

end PiFire.Ble.ChefIq
