import PiFire.Probes.Reload

/-!
# No instance is freed while it is read

The count of readers is the number of threads between counting themselves and
applying what they read. While it is not zero no thread changes the devices or the
map, so what a reader found when it counted itself is still there when it applies.
-/

namespace PiFire.Probes

open Transition

variable {Thread ρ : Type}

/-- A reading is one of a device that is in the table still. -/
def Fresh (devices : List Device) (readings : List (Reading ρ)) : Prop :=
  ∀ r ∈ readings, (devices[r.device]?).map Device.inst = some r.inst

/-- What a thread carries along agrees with the table. -/
def Stage.Fits (loads : ℕ) (devices : List Device) : Stage ρ → Prop
  | polling load _ _ readings | returning load readings | applying load readings =>
    load = loads ∧ Fresh devices readings
  | inRead load _ i inst readings =>
    load = loads ∧ (devices[i]?).map Device.inst = some inst ∧ Fresh devices readings
  | destroying _ left => ∀ inst ∈ left, inst ∈ devices.map Device.inst
  | _ => True

/-- It destroys devices. -/
def Stage.Destroys : Stage ρ → Prop
  | destroying _ _ => True
  | _ => False

namespace State

/-- What holds between any two steps. -/
structure Safe (s : State Thread ρ) : Prop where
  lock : Exclusive Stage.Inside s.stage s.owner
  count : Counted Stage.Reads s.stage s.reading
  apart : ∀ t, (s.stage t).Changes → s.reading = 0
  fits : ∀ t, (s.stage t).Fits s.loads s.devices
  whole : (∀ t, ¬(s.stage t).Destroys) → ∀ d ∈ s.devices, d.inst ∉ s.destroyed
  numbered : (∀ d ∈ s.devices, d.inst < s.created) ∧ ∀ inst ∈ s.destroyed, inst < s.created
  applied : s.AppliedToOwn

theorem safe_start : Safe (start : State Thread ρ) where
  lock := by
    rw [start, exclusive_none]
    rintro t ⟨⟩
  count := by
    rw [start, counted_zero]
    rintro t ⟨⟩
  apart := by
    rintro t ⟨⟩
  fits _ := trivial
  whole := by
    rintro _ d ⟨⟩
  numbered := by
    constructor
    · rintro d ⟨⟩
    · rintro inst ⟨⟩
  applied := by
    rintro a ⟨⟩

theorem inside_of_changes {here : Stage ρ} (changes : here.Changes) : here.Inside := by
  cases here <;> trivial

theorem changes_of_destroys {here : Stage ρ} (destroys : here.Destroys) : here.Changes := by
  cases here <;> trivial

theorem fits_of_idle {here : Stage ρ} (reads : ¬here.Reads) (changes : ¬here.Changes)
    (loads : ℕ) (devices : List Device) : here.Fits loads devices := by
  cases here <;> first | trivial | exact absurd trivial reads | exact absurd trivial changes

theorem Safe.noneFreed {s : State Thread ρ} (safe : Safe s) : s.NoneFreedInUse := by
  intro t inst flying
  cases here : s.stage t with
  | inRead load ndev i inst' readings =>
    rw [here] at flying
    cases flying
    have fits := safe.fits t
    rw [here] at fits
    obtain ⟨d, member, rfl⟩ := Option.map_eq_some_iff.mp fits.2.1
    have reading : 0 < s.reading := safe.count.pos (t := t) (by rw [here]; trivial)
    apply safe.whole ?_ d (List.mem_of_getElem? member)
    intro u destroys
    have none_reads := safe.apart u (changes_of_destroys destroys)
    omega
  | _ => rw [here] at flying; cases flying

variable {s : State Thread ρ} {t : Thread}

theorem Safe.alone (safe : Safe s) (inside : (s.stage t).Inside) {u : Thread}
    (changes : (s.stage u).Changes) : u = t :=
  safe.lock.unique (inside_of_changes changes) inside

variable [DecidableEq Thread]

theorem Safe.move (safe : Safe s) {here : Stage ρ} {owner : Option Thread}
    (lock : Exclusive Stage.Inside (Function.update s.stage t here) owner)
    (reads : here.Reads ↔ (s.stage t).Reads) (quiet : here.Changes → s.reading = 0)
    (fits : here.Fits s.loads s.devices) (still : (s.stage t).Destroys → here.Destroys) :
    Safe ({ s with owner := owner }.go t here) where
  lock := lock
  count := safe.count.move reads
  apart u changes := by
    by_cases moved : u = t
    · subst moved
      exact quiet (by simpa [go] using changes)
    · exact safe.apart u (by simpa [go, moved] using changes)
  fits u := by
    by_cases moved : u = t
    · subst moved
      simpa [go] using fits
    · simpa [go, moved] using safe.fits u
  whole none_destroys := by
    apply safe.whole
    intro u destroys
    by_cases moved : u = t
    · subst moved
      exact none_destroys u (by simpa [go] using still destroys)
    · exact none_destroys u (by simpa [go, moved] using destroys)
  numbered := safe.numbered
  applied := safe.applied

theorem Safe.go (safe : Safe s) (here : Stage ρ)
    (inside : here.Inside ↔ (s.stage t).Inside)
    (reads : here.Reads ↔ (s.stage t).Reads) (quiet : here.Changes → s.reading = 0)
    (fits : here.Fits s.loads s.devices) (still : (s.stage t).Destroys → here.Destroys) :
    Safe (s.go t here) :=
  safe.move (safe.lock.move inside) reads quiet fits still

theorem Safe.lockTo (safe : Safe s) (here : Stage ρ) (inside : here.Inside)
    (reads : here.Reads ↔ (s.stage t).Reads) (quiet : ¬here.Changes)
    (fits : here.Fits s.loads s.devices) (still : ¬(s.stage t).Destroys) :
    Safe (s.lock t here) := by
  rw [State.lock]
  split
  · rename_i free
    have lock := safe.lock
    rw [free] at lock
    exact safe.move (lock.enter inside) reads (fun changes => absurd changes quiet) fits
      (fun destroys => absurd destroys still)
  · exact safe

theorem Safe.rebuild (safe : Safe s) (changing : (s.stage t).Changes) {s' : State Thread ρ}
    {here : Stage ρ} (stage : s'.stage = Function.update s.stage t here)
    (lock : Exclusive Stage.Inside (Function.update s.stage t here) s'.owner)
    (reading : s'.reading = s.reading) (reads : ¬here.Reads)
    (fits : here.Fits s'.loads s'.devices)
    (whole : ¬here.Destroys → ∀ d ∈ s'.devices, d.inst ∉ s'.destroyed)
    (numbered : (∀ d ∈ s'.devices, d.inst < s'.created) ∧ ∀ inst ∈ s'.destroyed, inst < s'.created)
    (applied : s'.applied = s.applied) : Safe s' := by
  have none_counted := safe.apart t changing
  have none_reads : ∀ u, ¬(s.stage u).Reads := by
    have count := safe.count
    rw [none_counted] at count
    exact counted_zero.mp count
  constructor
  · rw [stage]
    exact lock
  · rw [stage, reading]
    exact safe.count.move (iff_of_false reads (none_reads t))
  · intro u _
    rw [reading]
    exact none_counted
  · intro u
    rw [stage]
    by_cases moved : u = t
    · subst moved
      simpa using fits
    · rw [Function.update_of_ne moved]
      exact fits_of_idle (none_reads u)
        (fun changes => moved (safe.alone (inside_of_changes changing) changes)) _ _
  · intro none_destroys
    apply whole
    have here_not := none_destroys t
    rwa [stage, Function.update_self] at here_not
  · exact numbered
  · rw [AppliedToOwn, applied]
    exact safe.applied

theorem Safe.destroy (safe : Safe s) {job : Job} {inst : Inst} {left : List Inst}
    (at_it : s.stage t = .destroying job (inst :: left)) :
    Safe ({ s with destroyed := s.destroyed ++ [inst] }.go t (.destroying job left)) := by
  have fits := safe.fits t
  rw [at_it] at fits
  have member : inst ∈ s.devices.map Device.inst := fits inst List.mem_cons_self
  refine safe.rebuild (t := t) (by rw [at_it]; trivial) rfl
    (safe.lock.move (by rw [at_it]; exact Iff.rfl)) rfl (by rintro ⟨⟩) ?_ ?_ ?_ ?_
  · intro other inside
    exact fits other (List.mem_cons_of_mem inst inside)
  · intro not_destroys
    exact absurd trivial not_destroys
  · refine ⟨safe.numbered.1, fun other destroyed => ?_⟩
    rcases List.mem_append.mp destroyed with before | here
    · exact safe.numbered.2 other before
    · obtain ⟨d, inside, rfl⟩ := List.mem_map.mp member
      rw [List.mem_singleton.mp here]
      exact safe.numbered.1 d inside
  · rfl

theorem Safe.clear (safe : Safe s) {job : Job} (at_it : s.stage t = .destroying job [])
    {here : Stage ρ} {owner : Option Thread}
    (lock : Exclusive Stage.Inside (Function.update s.stage t here) owner)
    (reads : ¬here.Reads) (fits : here.Fits (s.loads + 1) []) :
    Safe ({ s with devices := [], probes := [], loads := s.loads + 1, owner := owner }.go t
      here) := by
  refine safe.rebuild (t := t) (by rw [at_it]; trivial) rfl lock rfl reads fits ?_ ?_ ?_
  · rintro _ d ⟨⟩
  · exact ⟨by rintro d ⟨⟩, safe.numbered.2⟩
  · rfl

theorem Safe.create (safe : Safe s) {d : DeviceSetting} {left : List DeviceSetting}
    {probes : List ProbeSetting} (at_it : s.stage t = .creating (d :: left) probes) :
    Safe ((s.create d).go t (.creating left probes)) := by
  have whole := safe.whole (fun u destroys => by
    have alone := safe.alone (t := t) (by rw [at_it]; trivial) (changes_of_destroys destroys)
    rw [alone, at_it] at destroys
    exact destroys)
  have inside : Stage.Inside (.creating left probes : Stage ρ) ↔ (s.stage t).Inside := by
    rw [at_it]
    exact Iff.rfl
  rw [State.create]
  split
  · refine safe.rebuild (t := t) (by rw [at_it]; trivial) rfl (safe.lock.move inside) rfl
      (by rintro ⟨⟩) trivial ?_ ?_ ?_
    · intro _ d' member
      rcases List.mem_append.mp member with before | here
      · exact whole d' before
      · rw [List.mem_singleton.mp here]
        intro destroyed
        exact absurd (safe.numbered.2 _ destroyed) (Nat.lt_irrefl _)
    · refine ⟨fun d' member => ?_, fun inst destroyed => ?_⟩
      · rcases List.mem_append.mp member with before | here
        · exact Nat.lt_succ_of_lt (safe.numbered.1 d' before)
        · rw [List.mem_singleton.mp here]
          exact Nat.lt_succ_self _
      · exact Nat.lt_succ_of_lt (safe.numbered.2 inst destroyed)
    · rfl
  · exact safe.rebuild (by rw [at_it]; trivial) rfl (safe.lock.move inside) rfl
      (by rintro ⟨⟩) trivial (fun _ => whole) safe.numbered rfl

theorem Safe.finish (safe : Safe s) {settings : List ProbeSetting}
    (at_it : s.stage t = .creating [] settings) (probes : List (Probe ρ)) :
    Safe ({ s with probes := probes }.unlock t .out) := by
  have whole := safe.whole (fun u destroys => by
    have alone := safe.alone (t := t) (by rw [at_it]; trivial) (changes_of_destroys destroys)
    rw [alone, at_it] at destroys
    exact destroys)
  have inside : (s.stage t).Inside := by
    rw [at_it]
    trivial
  exact safe.rebuild (by rw [at_it]; trivial) rfl (safe.lock.leave inside (by rintro ⟨⟩)) rfl
    (by rintro ⟨⟩) trivial (fun _ => whole) safe.numbered rfl

theorem Safe.count_in (safe : Safe s) (at_it : s.stage t = .counting) :
    Safe ({ s with reading := s.reading + 1 }.unlock t
      (.polling s.loads s.devices.length 0 [])) := by
  have inside : (s.stage t).Inside := by
    rw [at_it]
    trivial
  have none_changes : ∀ u, ¬(s.stage u).Changes := by
    intro u changes
    rw [safe.alone inside changes, at_it] at changes
    exact changes
  constructor
  · exact safe.lock.leave inside (by rintro ⟨⟩)
  · exact safe.count.join (by rw [at_it]; rintro ⟨⟩) trivial
  · intro u changes
    by_cases moved : u = t
    · subst moved
      simp [unlock, State.go, Stage.Changes] at changes
    · exact absurd (by simpa [unlock, State.go, moved] using changes) (none_changes u)
  · intro u
    by_cases moved : u = t
    · subst moved
      simp [unlock, State.go, Stage.Fits, Fresh]
    · simpa [unlock, State.go, moved] using safe.fits u
  · intro _
    exact safe.whole fun u destroys => none_changes u (changes_of_destroys destroys)
  · exact safe.numbered
  · exact safe.applied

theorem signal_inside (here : Stage ρ) : here.signal.Inside ↔ here.Inside := by
  cases here <;> rfl

theorem signal_reads (here : Stage ρ) : here.signal.Reads ↔ here.Reads := by
  cases here <;> rfl

theorem signal_changes (here : Stage ρ) : here.signal.Changes ↔ here.Changes := by
  cases here <;> rfl

theorem signal_fits (here : Stage ρ) (loads : ℕ) (devices : List Device) :
    here.signal.Fits loads devices ↔ here.Fits loads devices := by
  cases here <;> rfl

omit [DecidableEq Thread] in
theorem Safe.woken (safe : Safe s) {stage : Thread → Stage ρ}
    (some_woken : ∀ u, stage u = s.stage u ∨ stage u = (s.stage u).signal) :
    Safe { s with stage := stage } := by
  have same : ∀ p : Stage ρ → Prop, (∀ here, p here.signal ↔ p here) →
      ∀ u, p (stage u) ↔ p (s.stage u) := by
    intro p kept u
    rcases some_woken u with still | signalled
    · rw [still]
    · rw [signalled]
      exact kept _
  constructor
  · intro u
    exact (same _ signal_inside u).trans (safe.lock u)
  · exact safe.count.congr (same _ signal_reads)
  · intro u changes
    exact safe.apart u ((same _ signal_changes u).mp changes)
  · intro u
    exact (same _ (fun here => signal_fits here _ _) u).mpr (safe.fits u)
  · intro none_destroys
    apply safe.whole
    intro u
    have destroys : ∀ here : Stage ρ, here.signal.Destroys ↔ here.Destroys := by
      intro here
      cases here <;> rfl
    exact mt (same _ destroys u).mpr (none_destroys u)
  · exact safe.numbered
  · exact safe.applied

theorem Safe.apply_out (safe : Safe s) {load : ℕ} {readings : List (Reading ρ)}
    (at_it : s.stage t = .applying load readings) :
    Safe ((s.apply load readings).unlock t .out) := by
  have inside : (s.stage t).Inside := by
    rw [at_it]
    trivial
  have none_changes : ∀ u, ¬(s.stage u).Changes := by
    intro u changes
    rw [safe.alone inside changes, at_it] at changes
    exact changes
  have fits := safe.fits t
  rw [at_it] at fits
  -- the thread leaves first; those that wait are woken by the same step
  have left : Safe ({ s.apply load readings with stage := s.stage }.unlock t .out) := by
    constructor
    · exact safe.lock.leave inside (by rintro ⟨⟩)
    · exact safe.count.leave (by rw [at_it]; trivial) (by rintro ⟨⟩)
    · intro u changes
      by_cases moved : u = t
      · subst moved
        simp [unlock, State.go, Stage.Changes] at changes
      · exact absurd (by simpa [unlock, State.go, moved] using changes) (none_changes u)
    · intro u
      by_cases moved : u = t
      · subst moved
        simp [unlock, State.go, Stage.Fits]
      · simpa [unlock, State.go, apply, moved] using safe.fits u
    · intro _
      exact safe.whole fun u destroys => none_changes u (changes_of_destroys destroys)
    · exact safe.numbered
    · intro a member
      rcases List.mem_append.mp member with before | here
      · exact safe.applied a before
      · rw [List.mem_singleton.mp here]
        exact ⟨fits.1, fits.2⟩
  refine left.woken fun u => ?_
  by_cases moved : u = t
  · subst moved
    simp [unlock, State.go]
  · simp only [unlock, State.go, apply, Function.update_of_ne moved]
    split
    · exact Or.inr rfl
    · exact Or.inl rfl

theorem Safe.advance (safe : Safe s) (t : Thread) (due : Bool) : Safe (s.advance t due) := by
  have fits := safe.fits t
  rw [State.advance]
  cases at_it : s.stage t with
  | out | inRead | waiting => exact safe
  | entering =>
    exact safe.lockTo .counting trivial (by rw [at_it]; rfl) (by rintro ⟨⟩) trivial
      (by rw [at_it]; rintro ⟨⟩)
  | counting => exact safe.count_in at_it
  | polling load ndev i readings =>
    rw [at_it] at fits
    have next : Safe (s.go t (.polling load ndev (i + 1) readings)) :=
      safe.go _ (by rw [at_it]; rfl) (by rw [at_it]; rfl) (by rintro ⟨⟩) fits
        (by rw [at_it]; rintro ⟨⟩)
    dsimp only
    split
    · split
      · rename_i d here
        split
        · exact safe.go _ (by rw [at_it]; rfl) (by rw [at_it]; rfl) (by rintro ⟨⟩)
            ⟨fits.1, by rw [here]; rfl, fits.2⟩ (by rw [at_it]; rintro ⟨⟩)
        · exact next
      · exact next
    · exact safe.go _ (by rw [at_it]; rfl) (by rw [at_it]; rfl) (by rintro ⟨⟩) fits
        (by rw [at_it]; rintro ⟨⟩)
  | returning load readings =>
    rw [at_it] at fits
    exact safe.lockTo _ trivial (by rw [at_it]; rfl) (by rintro ⟨⟩) fits
      (by rw [at_it]; rintro ⟨⟩)
  | applying load readings => exact safe.apply_out at_it
  | calling job | woken job =>
    exact safe.lockTo (.testing job) trivial (by rw [at_it]; rfl) (by rintro ⟨⟩) trivial
      (by rw [at_it]; rintro ⟨⟩)
  | testing job =>
    have inside : (s.stage t).Inside := by
      rw [at_it]
      trivial
    dsimp only
    split
    · exact safe.move (safe.lock.leave inside (by rintro ⟨⟩)) (by rw [at_it]; rfl)
        (by rintro ⟨⟩) trivial (by rw [at_it]; rintro ⟨⟩)
    · rename_i none_reads
      exact safe.go _ (by rw [at_it]; rfl) (by rw [at_it]; rfl)
        (fun _ => Nat.eq_zero_of_not_pos none_reads) (fun inst member => member)
        (fun _ => trivial)
  | destroying job left =>
    have inside : (s.stage t).Inside := by
      rw [at_it]
      trivial
    cases left with
    | cons inst left => exact safe.destroy at_it
    | nil =>
      rcases job with (_ | map) | _
      · exact safe.clear at_it (safe.lock.leave inside (by rintro ⟨⟩)) (by rintro ⟨⟩) trivial
      · exact safe.clear at_it (safe.lock.move (by rw [at_it]; exact Iff.rfl)) (by rintro ⟨⟩)
          trivial
      · exact safe.clear at_it (safe.lock.leave inside (by rintro ⟨⟩)) (by rintro ⟨⟩) trivial
  | creating left probes =>
    cases left with
    | cons d left => exact safe.create at_it
    | nil => exact safe.finish at_it _

theorem Safe.happen (safe : Safe s) (t : Thread) (event : Event ρ) : Safe (s.happen t event) := by
  have fits := safe.fits t
  unfold State.happen
  split
  · rename_i at_it
    exact safe.go .entering (by rw [at_it]; rfl) (by rw [at_it]; rfl) (by rintro ⟨⟩) trivial
      (by rw [at_it]; rintro ⟨⟩)
  · rename_i job at_it
    exact safe.go (.calling job) (by rw [at_it]; rfl) (by rw [at_it]; rfl) (by rintro ⟨⟩) trivial
      (by rw [at_it]; rintro ⟨⟩)
  · exact safe.advance t _
  · rename_i samples load ndev i inst readings at_it
    rw [at_it] at fits
    refine safe.go _ (by rw [at_it]; rfl) (by rw [at_it]; rfl) (by rintro ⟨⟩) ⟨fits.1, ?_⟩
      (by rw [at_it]; rintro ⟨⟩)
    intro r member
    rcases List.mem_append.mp member with before | here
    · exact fits.2.2 r before
    · rw [List.mem_singleton.mp here]
      exact fits.2.1
  · rename_i job at_it
    exact safe.go (.woken job) (by rw [at_it]; rfl) (by rw [at_it]; rfl) (by rintro ⟨⟩) trivial
      (by rw [at_it]; rintro ⟨⟩)
  · exact safe

end State

/-- Whatever the threads do in whatever order, no instance is ever freed while a read
on it is in flight, and what a poll read is applied to the map it was read for and to
no other. -/
theorem reload_spares_readers [DecidableEq Thread] (events : List (Thread × State.Event ρ)) :
    Throughout State.step (fun s => s.NoneFreedInUse ∧ s.AppliedToOwn) events State.start := by
  apply Along.strengthen State.Safe
  · intro i s safe _
    exact safe.happen i.1 i.2
  · intro i s safe _
    exact ⟨(safe.happen i.1 i.2).noneFreed, (safe.happen i.1 i.2).applied⟩
  · exact State.safe_start
  · exact along_of_forall (fun _ _ _ => trivial) State.start

end PiFire.Probes
