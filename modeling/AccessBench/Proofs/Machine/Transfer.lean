import AccessBench.Proofs.Cache
import AccessBench.Proofs.Machine
import AccessBench.Proofs.Trial.Accounts
import AccessBench.Proofs.Trial.Projection
import Mathlib

/-!
Trials over a file that is long enough. Nothing stops them, except that there is no room for a
buffer of a unit, and they account for every byte.
-/

namespace AccessBench

/-- The rig without giving regions back, so that the region is still there after a trial. -/
def Rig.holding {σ : Type} (rig : Rig σ) : Rig σ := { rig with release := id }

namespace Machine

/-- The machine has the region of a scenario over a file that is long enough, and so many calls have
been made on it. -/
def IsOpen (s : Scenario) (node calls : Nat) (m : Machine) : Prop :=
  ∃ r, m.region = some (.file r) ∧ r.IsOf s node m.store ∧ r.calls = calls

/-- From the first machine to the second one a range of a file has been transferred between it and
the buffer of the region, and nothing else. -/
def Transfers (access : Access) (node : Nat) (step : Machine × Machine) (range : ByteRange) : Prop :=
  ∃ r r', step.1.region = some (.file r) ∧
    step.2 = { step.1 with region := some (.file r'), store := step.2.store } ∧
    r.Transfers access node range step.1.store r' step.2.store

variable {s : Scenario} {m : Machine} {node calls : Nat}

theorem IsOpen.touch (h : m.IsOpen s node calls) {i : Nat}
    (hi : i * s.unit.toNat < s.size.toNat) :
    ∃ m', m.touch i s.access = (.ok (s.moved i), m') ∧ m'.IsOpen s node (calls + 1) ∧
      m'.counter = m.counter ∧ Transfers s.access node (m, m') (s.block i) := by
  obtain ⟨store, region?, counter, clockReadings, faultReadings⟩ := m
  obtain ⟨r, hregion, hof, hcalls⟩ := h
  obtain rfl : region? = some (.file r) := hregion
  obtain ⟨r', store', htouch, hof', hcalls', htransfers⟩ := hof.touch hi
  refine ⟨⟨store', some (.file r'), counter, clockReadings, faultReadings⟩, ?_,
    ⟨r', rfl, hof', ?_⟩, rfl, r, r', rfl, rfl, htransfers⟩
  · simp only [Machine.touch, Region.touch, htouch]
  · rw [hcalls', hcalls]

theorem IsOpen.units (h : m.IsOpen s node calls) (hunit : s.unit ≠ 0) :
    m.units = .ok (unitsToCover s.size.toNat s.unit.toNat) := by
  obtain ⟨r, hregion, hof, -⟩ := h
  exact units_of_holds hunit ⟨.file r, hregion, hof.size, hof.unit⟩

/-- A machine with the states around the touches so far, and a log of exchanges. -/
abbrev Watched := (Machine × List (Machine × Machine)) × List Exchange

/-- The visits of some units that begin inside the region all succeed, and transfer their blocks in
turn. The log and the counter are told of each of them. -/
theorem perform_visitEach {visit : Nat → Action Watched Unit}
    {plan : Nat × UInt64 → List Exchange} (tell : UInt64 → TransferCounter → TransferCounter)
    (hvisit : ∀ i m steps log calls, i * s.unit.toNat < s.size.toNat → m.IsOpen s node calls →
      ∃ m' step, (visit i).perform ((m, steps), log) =
          (.ok (), (m', steps ++ [step]), log ++ plan (i, s.moved i)) ∧
        Transfers s.access node step (s.block i) ∧
        m'.IsOpen s node (calls + 1) ∧ m'.counter = tell (s.moved i) m.counter)
    {indices : List Nat} (hbegin : ∀ i ∈ indices, i * s.unit.toNat < s.size.toNat)
    (h : m.IsOpen s node calls) (steps : List (Machine × Machine)) (log : List Exchange)
    (visited : UInt64) :
    ∃ m' more, (visitEach visit indices visited).perform ((m, steps), log) =
        (.ok (visited + UInt64.ofNat indices.length), (m', steps ++ more),
          log ++ (s.visits indices).flatMap plan) ∧
      List.Forall₂ (Transfers s.access node) more (indices.map s.block) ∧
      m'.IsOpen s node (calls + indices.length) ∧
      m'.counter = indices.foldl (fun c i => tell (s.moved i) c) m.counter := by
  induction indices generalizing m calls steps log visited with
  | nil =>
    refine ⟨m, [], ?_, .nil, h, rfl⟩
    simp [visitEach, Scenario.visits]
  | cons i rest ih =>
    obtain ⟨hhead, hrest⟩ := List.forall_mem_cons.mp hbegin
    obtain ⟨m₁, step, hfirst, htransfers, hopen, hcounter⟩ := hvisit i m steps log calls hhead h
    obtain ⟨m₂, more, hothers, hmore, hended, htold⟩ :=
      ih hrest hopen (steps ++ [step]) (log ++ plan (i, s.moved i)) (visited + 1)
    refine ⟨m₂, step :: more, ?_, .cons htransfers hmore, ?_, ?_⟩
    · rw [visitEach, Action.perform_bind, hfirst]
      dsimp only
      rw [hothers]
      simp [Scenario.visits, UInt64.ofNat_add, UInt64.add_assoc, UInt64.add_comm 1]
    · rw [List.length_cons, Nat.add_comm rest.length 1, ← Nat.add_assoc]
      exact hended
    · rw [htold, hcounter, List.foldl_cons]

variable (platform : Platform) (path : String) (cache : CacheControl)

/-- The rig with both logs. -/
abbrev observed : Rig Watched := (fileRig platform path cache).watched.traced

theorem perform_touch_observed (h : m.IsOpen s node calls) {i : Nat}
    (hi : i * s.unit.toNat < s.size.toNat) (steps : List (Machine × Machine))
    (log : List Exchange) :
    ∃ m', ((observed platform path cache).touch i s.access).perform ((m, steps), log) =
        (.ok (s.moved i), (m', steps ++ [(m, m')]),
          log ++ [.touch i s.access (.ok (s.moved i))]) ∧
      Transfers s.access node (m, m') (s.block i) ∧
      m'.IsOpen s node (calls + 1) ∧ m'.counter = m.counter := by
  obtain ⟨m', htouch, hopen, hcounter, htransfers⟩ := h.touch hi
  have hperform : ((fileRig platform path cache).touch i s.access).perform m =
      (.ok (s.moved i), m') := by
    change (Action.ofStep (Machine.touch i s.access)).perform m = _
    rw [Action.perform_ofStep, htouch]
    rfl
  refine ⟨m', ?_, htransfers, hopen, hcounter⟩
  have hlogged : ((observed platform path cache).touch i s.access).perform ((m, steps), log) =
      ((((fileRig platform path cache).touch i s.access).perform m).1,
        ((((fileRig platform path cache).touch i s.access).perform m).2,
          steps ++ [(m, (((fileRig platform path cache).touch i s.access).perform m).2)]),
        log ++ [.touch i s.access
          (((fileRig platform path cache).touch i s.access).perform m).1]) :=
    rfl
  rw [hlogged, hperform]

theorem perform_warmVisit (h : m.IsOpen s node calls) {i : Nat}
    (hi : i * s.unit.toNat < s.size.toNat) (steps : List (Machine × Machine))
    (log : List Exchange) :
    ∃ m' step, ((observed platform path cache).warmVisit s.access i).perform ((m, steps), log) =
        (.ok (), (m', steps ++ [step]), log ++ Readings.warming s.access (i, s.moved i)) ∧
      Transfers s.access node step (s.block i) ∧
      m'.IsOpen s node (calls + 1) ∧ m'.counter = m.counter := by
  obtain ⟨m', htouch, htransfers, hopen, hcounter⟩ :=
    perform_touch_observed platform path cache h hi steps log
  refine ⟨m', _, ?_, htransfers, hopen, hcounter⟩
  rw [Rig.warmVisit, Action.perform_bind, htouch]
  rfl

theorem perform_timedVisit (h : m.IsOpen s node calls) {i : Nat}
    (hi : i * s.unit.toNat < s.size.toNat) (steps : List (Machine × Machine))
    (log : List Exchange) :
    ∃ m' step, ((observed platform path cache).timedVisit s.access i).perform ((m, steps), log) =
        (.ok (), (m', steps ++ [step]), log ++ Readings.timing s.access (i, s.moved i)) ∧
      Transfers s.access node step (s.block i) ∧
      m'.IsOpen s node (calls + 1) ∧ m'.counter = m.counter.record (s.moved i) := by
  obtain ⟨m', htouch, htransfers, hopen, hcounter⟩ :=
    perform_touch_observed platform path cache h hi steps log
  refine ⟨{ m' with counter := m'.counter.record (s.moved i) }, _, ?_, htransfers, hopen, ?_⟩
  · rw [Rig.timedVisit, Action.perform_bind, htouch]
    simp only [Action.perform_update, observed, Rig.traced, Rig.watched, fileRig,
      List.append_assoc, List.singleton_append, Readings.timing]
  · rw [← hcounter]

theorem perform_warmUp (hunit : 0 < s.unit.toNat) (h : m.IsOpen s node calls)
    (steps : List (Machine × Machine)) (log : List Exchange) :
    ∃ m' more, ((observed platform path cache).warmUp
          (unitsToCover s.size.toNat s.unit.toNat) s.access).perform ((m, steps), log) =
        (.ok (), (m', steps ++ more), log ++
          ((s.visits (List.range (unitsToCover s.size.toNat s.unit.toNat))).flatMap
            (Readings.warming s.access) ++ [.rewind (.ok ())])) ∧
      m'.IsOpen s node (calls + unitsToCover s.size.toNat s.unit.toNat) := by
  have hbegin : ∀ i ∈ List.range (unitsToCover s.size.toNat s.unit.toNat),
      i * s.unit.toNat < s.size.toNat :=
    fun i hi => (lt_unitsToCover_iff hunit).mp (List.mem_range.mp hi)
  obtain ⟨m', more, hpass, -, hopen, -⟩ := perform_visitEach (fun _ c => c)
    (fun _ _ steps log _ hi hopen => perform_warmVisit platform path cache hopen hi steps log)
    hbegin h steps log 0
  rw [List.length_range] at hopen
  refine ⟨m', more, ?_, hopen⟩
  rw [Rig.warmUp, visitAll_eq_visitEach, AccessPattern.toList_order_sequential,
    Action.perform_bind, hpass, ← List.append_assoc]
  rfl

/-- What a trial asks for between starting the counter and the timed pass. -/
def opening (start : Duration) : List Exchange := [.startCounter, .sample (.ok 0), .clock start]

/-- Around the timed pass stand two readings of the counter, and inside these two of the clock. The
touches from the start of the counter on are those of the pass. -/
theorem perform_measure_of_visits {pattern : AccessPattern} {units : Nat} {access : Access}
    {m' : Machine} {more : List (Machine × Machine)} {log : List Exchange}
    {timed : List (Nat × UInt64)}
    (hpass : (visitEach ((observed platform path cache).timedVisit access)
        (pattern.order units).toList 0).perform
          (({ m with counter := {}, clockReadings := m.clockReadings + 1 }, []),
            log ++ opening (platform.clock m.clockReadings)) =
      (.ok (UInt64.ofNat timed.length), (m', more),
        (log ++ opening (platform.clock m.clockReadings)) ++
          timed.flatMap (Readings.timing access)))
    (warm : List (Nat × UInt64)) (steps : List (Machine × Machine)) :
    let r : Readings := ⟨warm, 0, platform.clock m.clockReadings, timed,
      platform.clock m'.clockReadings, m'.counter.total⟩
    ((observed platform path cache).measure units pattern access).perform ((m, steps), log) =
      (.ok r.trial, ({ m' with clockReadings := m'.clockReadings + 1 }, more),
        log ++ r.measurement access) := by
  intro r
  have hstart : (Action.update fun w =>
        ((), (observed platform path cache).startCounter w)).perform ((m, steps), log) =
      (.ok (), ({ m with counter := {} }, []), log ++ [.startCounter]) := rfl
  have hsample (v : Machine) (steps : List (Machine × Machine)) (log : List Exchange) :
      (observed platform path cache).sample.perform ((v, steps), log) =
        (.ok v.counter.total, (v, steps), log ++ [.sample (.ok v.counter.total)]) := rfl
  have hclock (v : Machine) (steps : List (Machine × Machine)) (log : List Exchange) :
      (Action.update (observed platform path cache).clock).perform ((v, steps), log) =
        (.ok (platform.clock v.clockReadings),
          ({ v with clockReadings := v.clockReadings + 1 }, steps),
          log ++ [.clock (platform.clock v.clockReadings)]) := rfl
  have hopened : log ++ [.startCounter] ++ [.sample (.ok 0)] ++
      [.clock (platform.clock m.clockReadings)] =
        log ++ opening (platform.clock m.clockReadings) := by
    simp [opening]
  rw [Rig.measure, visitAll_eq_visitEach, Action.perform_bind, hstart]
  dsimp only
  rw [Action.perform_bind, hsample]
  dsimp only
  rw [Action.perform_bind, hclock]
  dsimp only
  rw [Action.perform_bind, hopened, hpass]
  dsimp only
  rw [Action.perform_bind, hclock]
  dsimp only
  rw [Action.perform_bind, hsample]
  simp [r, Readings.trial, Readings.measurement, opening]

/-- The measured part of a trial. It ends with the readings of a counter that began at zero. -/
theorem perform_measure {pattern : AccessPattern} (hunit : 0 < s.unit.toNat)
    (hpattern : pattern.Rearranges (unitsToCover s.size.toNat s.unit.toNat))
    (h : m.IsOpen s node calls) (steps : List (Machine × Machine)) (log : List Exchange)
    (warm : List (Nat × UInt64)) :
    let order := (pattern.order (unitsToCover s.size.toNat s.unit.toNat)).toList
    ∃ (r : Readings) (m' : Machine) (timed : List (Machine × Machine)),
      ((observed platform path cache).measure (unitsToCover s.size.toNat s.unit.toNat) pattern
          s.access).perform ((m, steps), log) =
        (.ok r.trial, (m', timed), log ++ r.measurement s.access) ∧
      List.Forall₂ (Transfers s.access node) timed (order.map s.block) ∧
      m'.IsOpen s node (calls + order.length) ∧ r.warm = warm ∧ r.timed = s.visits order ∧
      r.before = 0 ∧
      r.after.toNat = (order.map (blockLength s.size.toNat s.unit.toNat)).sum := by
  intro order
  have hfits := AccessPattern.fits_of_rearranges hpattern
  have hbegin : ∀ i ∈ order, i * s.unit.toNat < s.size.toNat :=
    fun i hi => (lt_unitsToCover_iff hunit).mp (hfits.inside i hi)
  -- the machine once the counter has been started and the first readings have been taken
  let begun : Machine := { m with counter := {}, clockReadings := m.clockReadings + 1 }
  obtain ⟨m', timed, hpass, htransfers, hopen, hcounter⟩ := perform_visitEach TransferCounter.record
    (fun _ _ steps log _ hi hopen => perform_timedVisit platform path cache hopen hi steps log)
    hbegin (show begun.IsOpen s node calls from h) []
    (log ++ opening (platform.clock m.clockReadings)) 0
  have hlength : (0 : UInt64) + UInt64.ofNat order.length =
      UInt64.ofNat (s.visits order).length := by
    rw [Scenario.visits, List.length_map, UInt64.zero_add]
  rw [hlength, List.nil_append] at hpass
  refine ⟨_, _, timed, perform_measure_of_visits platform path cache hpass warm steps, htransfers,
    hopen, rfl, rfl, rfl, ?_⟩
  have hsum : (order.map (blockLength s.size.toNat s.unit.toNat)).sum ≤ s.size.toNat :=
    sum_blockLength_le hunit (AccessPattern.nodup_order hpattern) hfits.inside
  have hsize := s.size.toNat_lt
  change m'.counter.total.toNat = _
  rw [hcounter, toNat_total_foldl_record]
  · exact Nat.zero_add _
  · change 0 + _ < _
    rw [UInt64.size]
    omega

/-- Over a region that is open a trial runs to its end. Its log is the plan of readings that tally,
its timed touches transfer the blocks of the order, and the calls are those of the timed pass and,
before it, those of a warm one. -/
theorem perform_measureRegion {pattern : AccessPattern} (hunit : s.unit ≠ 0)
    (hpattern : pattern.Rearranges (unitsToCover s.size.toNat s.unit.toNat))
    (h : m.IsOpen s node 0) (log : List Exchange) :
    let units := unitsToCover s.size.toNat s.unit.toNat
    ∃ (r : Readings) (m' : Machine) (timed : List (Machine × Machine)),
      ((observed platform path cache).measureRegion s pattern).perform ((m, []), log) =
        (.ok r.trial, (m', timed), log ++ r.plan s pattern) ∧
      List.Forall₂ (Transfers s.access node) timed ((pattern.order units).toList.map s.block) ∧
      r.Tallies s pattern ∧
      m'.IsOpen s node ((if pattern = .hotCache then units else 0) +
        (pattern.order units).toList.length) := by
  intro units
  have hpos := toNat_pos_of_ne_zero hunit
  have hfits := AccessPattern.fits_of_rearranges hpattern
  have hunits : (observed platform path cache).units ((m, []), log) = .ok units := h.units hunit
  rw [Rig.perform_measureRegion, hunits]
  dsimp only
  rw [hfits.check]
  dsimp only
  by_cases hhot : pattern = .hotCache
  · obtain ⟨m₁, warmed, hwarm, hopen⟩ := perform_warmUp platform path cache hpos h [] log
    obtain ⟨r, m₂, timed, hmeasure, htransfers, hended, hrwarm, htimed, hbefore, hafter⟩ :=
      perform_measure platform path cache hpos hpattern hopen ([] ++ warmed)
        (log ++ ((s.visits (List.range units)).flatMap (Readings.warming s.access) ++
          [.rewind (.ok ())])) (s.visits (List.range units))
    refine ⟨r, m₂, timed, ?_, htransfers, ⟨?_, htimed, hbefore, hafter⟩, ?_⟩
    · subst hhot
      simp only [Rig.session, AccessPattern.needsWarmup, if_true]
      rw [Action.perform_bind, hwarm]
      dsimp only
      rw [hmeasure, Readings.plan, if_pos rfl, Readings.warmUp, hrwarm, List.append_assoc log]
    · rw [if_pos hhot, hrwarm]
    · rw [if_pos hhot]
      rw [Nat.zero_add] at hended
      exact hended
  · obtain ⟨r, m₁, timed, hmeasure, htransfers, hended, hrwarm, htimed, hbefore, hafter⟩ :=
      perform_measure platform path cache hpos hpattern h [] log []
    refine ⟨r, m₁, timed, ?_, htransfers, ⟨?_, htimed, hbefore, hafter⟩, ?_⟩
    · rw [Rig.session, AccessPattern.needsWarmup_eq_false hhot, Readings.plan, if_neg hhot]
      exact hmeasure
    · rw [if_neg hhot, hrwarm]
    · rw [if_neg hhot]
      exact hended

/-- Without one of its logs, or without both, the observed rig measures the same. -/
theorem perform_measureRegion_of_observed {pattern : AccessPattern} {m' : Machine} {t : Trial}
    {timed : List (Machine × Machine)} {log log' : List Exchange}
    (h : ((observed platform path cache).measureRegion s pattern).perform ((m, []), log) =
      (.ok t, (m', timed), log')) :
    let rig := fileRig platform path cache
    (rig.measureRegion s pattern).perform m = (.ok t, m') ∧
      (rig.traced.measureRegion s pattern).perform (m, log) = (.ok t, m', log') ∧
      (rig.watched.measureRegion s pattern).perform (m, []) = (.ok t, m', timed) := by
  intro rig
  have htraced := (rig.projects_watched.traced.measureRegion s pattern) ((m, []), log)
  have hwatched : (rig.watched.measureRegion s pattern).perform (m, []) =
      (.ok t, m', timed) := by
    obtain ⟨added, hsame, -⟩ := Traced.measureRegion rig.watched (m, []) s pattern log
    rw [h] at hsame
    exact Prod.ext (congrArg (·.1) hsame).symm (congrArg (·.2.1) hsame).symm
  have hrun := (rig.projects_watched.measureRegion s pattern) (m, [])
  rw [h] at htraced
  rw [hwatched] at hrun
  exact ⟨hrun, htraced, hwatched⟩

/-- Preparing for a trial leads to the same file, which has become no shorter. -/
theorem find_prepareFile {text : String} {place : Path} {node : Nat}
    (hfile : m.store.find text = .ok (place, .file node)) (s : Scenario) :
    (prepareFile path cache s m).store.find text = .ok (place, .file node) ∧
      (m.store.bytes node).size ≤ ((prepareFile path cache s m).store.bytes node).size := by
  unfold prepareFile
  split
  · dsimp only
    obtain hkept | ⟨knob, turned, -, hturned⟩ := cache.drop_cases (some path) m.store
    · rw [hkept]
      exact ⟨hfile, Nat.le_refl _⟩
    · rw [hturned, Store.find_setBytes]
      exact ⟨hfile, m.store.size_bytes_le_overwrite turned node 0 _⟩
  · exact ⟨hfile, Nat.le_refl _⟩

theorem acquire_of_long {text : String} {place : Path} {node : Nat}
    (hfile : m.store.find text = .ok (place, .file node))
    (hlong : s.size.toNat ≤ (m.store.bytes node).size) :
    match platform.space.obtain s.unit.toNat with
    | .ok _ => ∃ m', ((fileRig platform text cache).acquire s).perform m = (.ok (), m') ∧
        m'.IsOpen s node 0
    | .error reason =>
      ((fileRig platform text cache).acquire s).perform m = (.error (.halted reason), m) := by
  rw [perform_acquire_fileRig, FileRegion.openAt_of_long platform.space hfile hlong]
  cases platform.space.obtain s.unit.toNat with
  | error reason => rfl
  | ok _ =>
    refine ⟨_, rfl, _, rfl, ⟨rfl, rfl, rfl, ?_, hlong⟩, rfl⟩
    intro haccess
    exact decide_eq_true haccess

/-- Over a file that has the bytes of a scenario, a trial accounts for every byte when there is room
for a buffer of its unit, whatever the pattern and the access are: its timed touches transfer ranges
of the file which share no byte and make up what is measured. Without the room it halts. -/
theorem fileRig_accounts {place : Path} {node : Nat} {pattern : AccessPattern}
    (hfile : m.store.find path = .ok (place, .file node))
    (hlong : s.size.toNat ≤ (m.store.bytes node).size) (hunit : s.unit ≠ 0)
    (hpattern : pattern.Rearranges (unitsToCover s.size.toNat s.unit.toNat)) :
    let rig := fileRig platform path cache
    let units := unitsToCover s.size.toNat s.unit.toNat
    match platform.space.obtain s.unit.toNat with
    | .ok _ =>
      ∃ (r : Readings) (ranges : List ByteRange) (timed : List (Machine × Machine)) (m' : Machine)
        (region : FileRegion),
        ((rig.trial s pattern).perform m).1 = .ok r.trial ∧
        ((rig.traced.trial s pattern).perform (m, [])).2.2 =
          [.prepare s, .acquire s (.ok ())] ++ r.plan s pattern ++ [.release] ∧
        (rig.watched.holding.trial s pattern).perform (m, []) = (.ok r.trial, m', timed) ∧
        List.Forall₂ (Transfers s.access node) timed ranges ∧
        r.Cover pattern units ∧ r.Accounts s pattern ranges ∧
        m'.region = some (.file region) ∧
        region.calls = r.trial.visited.toNat + if pattern = .hotCache then units else 0
    | .error reason => ((rig.trial s pattern).perform m).1 = .error (.halted reason) := by
  intro rig units
  obtain ⟨hprepared, hgrown⟩ := find_prepareFile path cache hfile s
  have hacquire := acquire_of_long platform cache hprepared (hlong.trans hgrown)
  cases hroom : platform.space.obtain s.unit.toNat with
  | error reason =>
    rw [hroom] at hacquire
    have hrefused : (rig.acquire s).perform (rig.prepare s m) =
      (.error (.halted reason), rig.prepare s m) := hacquire
    exact congrArg Prod.fst (Rig.perform_trial_of_refused hrefused)
  | ok _ =>
    rw [hroom] at hacquire
    obtain ⟨m₁, htaken, hopen⟩ := hacquire
    have hacquired : (rig.acquire s).perform (rig.prepare s m) = (.ok (), m₁) := htaken
    obtain ⟨r, m₂, timed, hmeasured, htransfers, htallies, hended⟩ :=
      perform_measureRegion platform path cache hunit hpattern hopen
        [.prepare s, .acquire s (.ok ())]
    obtain ⟨hrun, htraced, hwatched⟩ :=
      perform_measureRegion_of_observed platform path cache hmeasured
    obtain ⟨region, hregion, -, hcalls⟩ := hended
    refine ⟨r, _, timed, m₂, region, ?_, ?_, ?_, htransfers, htallies.cover,
      htallies.accounts (toNat_pos_of_ne_zero hunit) hpattern, hregion, ?_⟩
    · exact congrArg Prod.fst (Rig.perform_trial_of_measured hacquired hrun)
    · have hlogged : (rig.traced.acquire s).perform (rig.traced.prepare s (m, [])) =
          (((rig.acquire s).perform (rig.prepare s m)).1,
            ((rig.acquire s).perform (rig.prepare s m)).2,
            [.prepare s, .acquire s ((rig.acquire s).perform (rig.prepare s m)).1]) := rfl
      rw [hacquired] at hlogged
      exact congrArg (·.2.2) (Rig.perform_trial_of_measured hlogged htraced)
    · have hheld : (rig.watched.holding.acquire s).perform
          (rig.watched.holding.prepare s (m, [])) =
            (((rig.acquire s).perform (rig.prepare s m)).1,
              ((rig.acquire s).perform (rig.prepare s m)).2, []) := rfl
      rw [hacquired] at hheld
      have hran : (rig.watched.holding.measureRegion s pattern).perform (m₁, []) =
          (.ok r.trial, m₂, timed) := hwatched
      exact Rig.perform_trial_of_measured hheld hran
    · rw [hcalls, htallies.visited (AccessPattern.fits_of_rearranges hpattern)
        (toNat_pos_of_ne_zero hunit)]
      exact Nat.add_comm _ _

/-- A machine with one file, of ten bytes. -/
def withTenBytes : Machine where
  store := { entries := [(["f"], .file 0)], contents := #[⟨Array.replicate 10 7⟩] }

def overTenBytes (unit : UInt64) (access : Access) : Scenario where
  name := "ten"
  kind := .random
  access := access
  size := 10
  unit := unit

theorem find_withTenBytes : withTenBytes.store.find "/f" = .ok (["f"], .file 0) := by
  cbv

theorem fileRig_accounts_shuffled :
    ∃ (r : Readings) (ranges : List ByteRange),
      (((fileRig still "/f" .disabled).trial
        (overTenBytes 4 .write) (.random #[2, 0, 1])).perform withTenBytes).1 = .ok r.trial ∧
      r.Accounts (overTenBytes 4 .write) (.random #[2, 0, 1]) ranges := by
  have hpattern : (AccessPattern.random #[2, 0, 1]).Rearranges
      (unitsToCover (overTenBytes 4 .write).size.toNat (overTenBytes 4 .write).unit.toNat) := by
    change [2, 0, 1].Perm (List.range 3)
    decide
  have haccounts := fileRig_accounts still "/f" .disabled find_withTenBytes
    (show (overTenBytes 4 .write).size.toNat ≤ (withTenBytes.store.bytes 0).size by decide)
    (by decide) hpattern
  obtain ⟨r, ranges, -, -, -, hresult, -, -, -, -, hr, -⟩ := haccounts
  exact ⟨r, ranges, hresult, hr⟩

/-- A unit of 2⁶³ bytes is more than any buffer has, although ten bytes are all that is read. -/
theorem fileRig_oversized :
    withTenBytes.store.find "/f" = .ok (["f"], .file 0) ∧
      (withTenBytes.store.bytes 0).size = (overTenBytes 0x8000000000000000 .read).size.toNat ∧
      (overTenBytes 0x8000000000000000 .read).unit ≠ 0 ∧
      (((fileRig still "/f" .disabled).trial
        (overTenBytes 0x8000000000000000 .read) .sequential).perform withTenBytes).1 =
          .error (.halted .oversized) := by
  have hlong : (overTenBytes 0x8000000000000000 .read).size.toNat ≤
      (withTenBytes.store.bytes 0).size := by decide
  have hacquire := acquire_of_long still .disabled find_withTenBytes hlong
  have hrefused : ((fileRig still "/f" .disabled).acquire
      (overTenBytes 0x8000000000000000 .read)).perform withTenBytes =
        (.error (.halted .oversized), withTenBytes) := hacquire
  refine ⟨find_withTenBytes, by decide, by decide, ?_⟩
  exact congrArg Prod.fst (Rig.perform_trial_of_refused hrefused)

end Machine

end AccessBench
