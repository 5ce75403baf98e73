import AccessBench.Proofs.Machine.Disturbed
import AccessBench.Proofs.Machine
import AccessBench.Proofs.Scenario.Matrix
import Mathlib

/-!
The lifetime of the fixture over whole runs. Whichever calls fail and whatever the sink answers, a
run changes nothing in the store but its own fixture and the knob, and it leaves a fixture that it
has made only when it was told to, or when the program ends on the spot.
-/

namespace AccessBench

namespace Benchmark

/-- The text of the knob that a run turns to drop pages. -/
def knob (b : Benchmark) : String := (b.cache.map (·.knob)).getD defaultKnob

def fixtureBytes (b : Benchmark) : ByteArray :=
  fixtureContent b.config.file.fill b.config.randomSeed b.config.file.fileSize.toNat

/-- Nothing has been changed but the knob. -/
def Untouched (b : Benchmark) (before after : Store) : Prop :=
  ∀ place, before.resolve b.knob ≠ .ok place → after.sight? place = before.sight? place

/-- What a run leaves of its fixture, by what became of the fixtures that it asked for and by whether
it has aborted the program. -/
structure Leaves (b : Benchmark) (before after : Store)
    (made : List (Except BenchError FixtureFile)) (aborted : Bool) : Prop where
  /-- Places apart from those of the fixture and the knob stay as they were. -/
  frame : ∀ place, before.resolve b.config.file.path ≠ .ok place →
    before.resolve b.knob ≠ .ok place → after.sight? place = before.sight? place
  once : made.length ≤ 1
  reused : b.reuseFixture = true → made = []
  unmade : made = [] → b.Untouched before after
  refused : ∀ e, made = [.error e] → b.Untouched before after ∨
    ∃ place, before.resolve b.config.file.path = .ok place ∧ after.sight? place = none
  completed : ∀ f, made = [.ok f] →
    ∃ place, before.resolve b.config.file.path = .ok place ∧
      after.sight? place =
        if b.keepFixture || aborted then some (.file b.fixtureBytes) else none

variable {b : Benchmark} {before : Store} {aborted : Bool}

theorem leaves_of_untouched {after : Store} (h : b.Untouched before after) :
    b.Leaves before after [] aborted :=
  ⟨fun place _ hknob => h place hknob, by simp, fun _ => rfl, fun _ => h, by simp, by simp⟩

theorem leaves_of_refused {after : Store} {e : BenchError} (hreuse : b.reuseFixture = false)
    (h : after = before ∨ ∃ place, before.resolve b.config.file.path = .ok place ∧ after.Sound ∧
      after.sight? place = none ∧ ∀ p, p ≠ place → after.sight? p = before.sight? p) :
    b.Leaves before after [.error e] aborted := by
  refine ⟨?_, by simp, by simp [hreuse], by simp, ?_, by simp⟩
  · intro p hp _
    obtain rfl | ⟨place, hplace, -, -, hothers⟩ := h
    · rfl
    · apply hothers
      rintro rfl
      exact hp hplace
  · intro _ _
    obtain rfl | ⟨place, hplace, -, hgone, -⟩ := h
    · exact .inl fun _ _ => rfl
    · exact .inr ⟨place, hplace, hgone⟩

theorem leaves_of_completed {after : Store} {place : Path} {f : FixtureFile}
    (hreuse : b.reuseFixture = false) (hplace : before.resolve b.config.file.path = .ok place)
    (hself : after.sight? place =
      if b.keepFixture || aborted then some (.file b.fixtureBytes) else none)
    (hothers : ∀ p, p ≠ place → before.resolve b.knob ≠ .ok p →
      after.sight? p = before.sight? p) : b.Leaves before after [.ok f] aborted := by
  refine ⟨?_, by simp, by simp [hreuse], by simp, by simp, fun _ _ => ⟨place, hplace, hself⟩⟩
  intro p hp hknob
  apply hothers p _ hknob
  rintro rfl
  exact hp hplace

section

variable {s made : Store} {place : Path}
  (hgains : Store.Gains place b.fixtureBytes before made)
  (hknob : before.resolve b.knob ≠ .ok place) (hs : s.masking b.knob = made.masking b.knob)

include hgains hknob hs

/-- Over a store with a fixture of a run in it, what is seen while the knob is turned. -/
theorem sight?_of_steady : s.sight? place = some (.file b.fixtureBytes) ∧
    ∀ p, p ≠ place → before.resolve b.knob ≠ .ok p → s.sight? p = before.sight? p := by
  have hseen {p : Path} (hp : before.resolve b.knob ≠ .ok p) : s.sight? p = made.sight? p := by
    apply Store.sight?_of_masking hgains.sound hs
    rw [ne_eq, hgains.resolve_iff]
    exact hp
  refine ⟨(hseen hknob).trans hgains.sight?_self, ?_⟩
  intro p hp hpknob
  rw [hseen hpknob, hgains.sight?_of_ne hp]

/-- What is left once the use of the fixture ends. -/
theorem sight?_of_discard {f : FixtureFile} (hplace : before.resolve b.config.file.path = .ok place)
    (hslash : Path.needsDirectory b.config.file.path = false)
    (hpath : f.path = b.config.file.path) (howned : f.owned = !b.keepFixture) :
    (f.discard s).sight? place = (if b.keepFixture then some (.file b.fixtureBytes) else none) ∧
      ∀ p, p ≠ place → before.resolve b.knob ≠ .ok p →
        (f.discard s).sight? p = before.sight? p := by
  obtain ⟨hself, hothers⟩ := sight?_of_steady hgains hknob hs
  cases hkeep : b.keepFixture with
  | true =>
    rw [hkeep] at howned
    rw [FixtureFile.discard_of_kept howned]
    exact ⟨hself, hothers⟩
  | false =>
    rw [hkeep] at howned
    obtain ⟨node, hfind, -⟩ := FixtureFile.find_of_gains hgains hplace hslash
    obtain ⟨hentries, hworking, -, -⟩ := Store.same_of_masking hs
    have hthere : s.find f.path = .ok (place, .file node) := by
      rw [hpath, Store.find_congr hentries hworking, hfind]
    have hloses : Store.Loses place s (f.discard s) :=
      FixtureFile.discard_of_owned howned (Store.sound_of_masking hgains.sound hs) hthere
    refine ⟨Store.sight?_of_none hloses.lost, ?_⟩
    intro p hp hpknob
    rw [hloses.sight?_of_ne hp, hothers p hp hpknob]

end

/-- Whether a run has ended the program on the spot. -/
def abortedBy (ended : Except Stop Summary) : Bool :=
  match ended with
  | .ok _ => false
  | .error stop => stop.aborts

theorem run_of_leads {σ τ : Type} {host : Host σ} {sink : Sink τ} {suites : Suites} {w : σ}
    {state : τ} (pre : σ → Prop) (post : Bool → σ → Prop)
    (h : (b.runSuites host sink suites).Leads (fun r => pre r.world) (fun r => post false r.world)
      fun aborted r => post aborted r.world) (hw : pre w) :
    post (abortedBy (b.run host sink suites w state).1)
      (b.run host sink suites w state).2.world := by
  have hended := h { world := w, sink := state } hw
  rw [run]
  generalize (b.runSuites host sink suites).perform { world := w, sink := state } = ended
    at hended ⊢
  obtain ⟨result, r⟩ := ended
  cases result with
  | ok _ | error _ => exact hended

section

open Disturbed

variable {τ : Type} (platform : Platform) (faults : Faults)

/-- Until the file suite asks for a fixture, the store is that of the start. -/
def Untried (before : Store) (w : Disturbed) : Prop :=
  w.machine.HasClosed before ∧ w.made = []

def LeavesIn (b : Benchmark) (before : Store) (aborted : Bool) (w : Disturbed) : Prop :=
  b.Leaves before w.machine.store w.made aborted

theorem leaves_of_untried {w : Disturbed} (h : Untried before w) :
    b.LeavesIn before aborted w := by
  obtain ⟨⟨hstore, -⟩, hmade⟩ := h
  rw [LeavesIn, hmade, hstore]
  exact leaves_of_untouched fun _ _ => rfl

/-- What comes of the preparation of a fixture. -/
inductive Prepares (b : Benchmark) (before : Store) :
    Except BenchError FixtureFile → Disturbed → Prop
  | missing (e : BenchError) (w : Disturbed) :
    Untried before w → Prepares b before (.error e) w
  | adopted (f : FixtureFile) (w : Disturbed) :
    Untried before w → f.owned = false → Prepares b before (.ok f) w
  | refused (e : BenchError) (w : Disturbed) :
    (∀ aborted, b.LeavesIn before aborted w) → Prepares b before (.error e) w
  | made (f g : FixtureFile) (place : Path) (w : Disturbed) :
    b.reuseFixture = false → w.made = [.ok g] →
    before.resolve b.config.file.path = .ok place →
    Path.needsDirectory b.config.file.path = false →
    Store.Gains place b.fixtureBytes before w.machine.store →
    f.path = b.config.file.path → f.owned = (!b.keepFixture) → Prepares b before (.ok f) w

theorem prepares_prepareFixture (hsound : before.Sound) {w : Disturbed} (hw : Untried before w) :
    b.Prepares before (b.prepareFixture (host platform faults) w).1
      (b.prepareFixture (host platform faults) w).2 := by
  have hstore := hw.1.1
  have hmade := hw.2
  cases hreuse : b.reuseFixture with
  | true =>
    simp only [prepareFixture, hreuse, if_true]
    change Prepares b before (FixtureFile.adopt b.config.file.path w.machine.store) w
    rw [FixtureFile.adopt]
    cases w.machine.store.sizeOf? b.config.file.path with
    | error failure => exact .missing _ w hw
    | ok length => exact .adopted _ w hw rfl
  | false =>
    have hperform : b.prepareFixture (host platform faults) w =
        ((makeFixture platform faults b.config.file.path b.config.file.fileSize b.config.file.fill
            b.config.randomSeed w.machine).1.map fun f => if b.keepFixture then f.keep else f,
          { w with
            machine := (makeFixture platform faults b.config.file.path b.config.file.fileSize
              b.config.file.fill b.config.randomSeed w.machine).2
            made := w.made ++ [(makeFixture platform faults b.config.file.path
              b.config.file.fileSize b.config.file.fill b.config.randomSeed w.machine).1] }) := by
      simp only [prepareFixture, hreuse, Bool.false_eq_true, if_false]
      rfl
    rw [hperform, hmade, List.nil_append]
    obtain ⟨e, m, hmake, hleft⟩ | ⟨place, m, hmake, hplace, hslash, hgains⟩ :=
      makeFixture_cases platform faults (hstore ▸ hsound) b.config.file.path b.config.file.fileSize
        b.config.file.fill b.config.randomSeed
    · rw [hmake]
      rw [hstore] at hleft
      exact .refused e _ fun _ => leaves_of_refused hreuse hleft
    · rw [hmake]
      rw [hstore] at hplace hgains
      cases hkeep : b.keepFixture with
      | true => exact .made _ _ place _ hreuse rfl hplace hslash hgains rfl (by rw [hkeep]; rfl)
      | false => exact .made _ _ place _ hreuse rfl hplace hslash hgains rfl (by rw [hkeep]; rfl)

/-- From a store on, nothing but the knob has been changed and no more fixtures asked for. -/
def Steady (b : Benchmark) (masked : Store) (made : List (Except BenchError FixtureFile))
    (w : Disturbed) : Prop :=
  w.machine.store.masking b.knob = masked ∧ w.made = made

theorem preserves_fileMatrix (sink : Sink τ) {cache : CacheControl} (hcache : cache.knob = b.knob)
    (fixture : FixtureFile) (masked : Store) (made : List (Except BenchError FixtureFile)) :
    (b.runFileMatrix (host platform faults) sink cache fixture).Preserves
      fun r => b.Steady masked made r.world := by
  rw [runFileMatrix]
  cases hm : b.config.file.matrix fixture.length with
  | error reason => exact fun _ hr => hr
  | ok m =>
    apply preserves_runMatrix sink
    intro part hpart s hs
    unfold Steady
    rw [← hcache]
    exact preserves_rig (Machine.preserves_fileRig platform fixture.path cache masked
      ((FileConfig.reads hm part hpart).2 s hs).1)

/-- A fixture that has been made is cleaned up unless the program ends on the spot. -/
theorem leads_runOverFixture (sink : Sink τ) (hsound : before.Sound)
    (hapart : ∀ place, before.resolve b.knob = .ok place →
      before.resolve b.config.file.path ≠ .ok place)
    {cache : CacheControl} (hcache : cache.knob = b.knob) (f : FixtureFile) :
    (b.runOverFixture (host platform faults) sink cache f).Leads
      (fun r => b.Prepares before (.ok f) r.world)
      (fun r => b.LeavesIn before false r.world)
      fun aborted r => b.LeavesIn before aborted r.world := by
  intro r hr
  have hsteady := preserves_fileMatrix platform faults sink hcache f
    (r.world.machine.store.masking b.knob) r.world.made
  have hcleaned : ∀ v : Run Disturbed τ,
      b.Steady (r.world.machine.store.masking b.knob) r.world.made v.world →
        b.LeavesIn before false ((host platform faults).discardFixture f v.world) := by
    intro v hv
    obtain ⟨hmasked, hmade⟩ := hv
    change b.Leaves before (f.discard v.world.machine.store) v.world.made false
    rw [hmade]
    cases hr with
    | adopted _ _ huntried howned =>
      obtain ⟨⟨hstore, -⟩, hnone⟩ := huntried
      rw [hstore] at hmasked
      rw [hnone, FixtureFile.discard_of_kept howned]
      exact leaves_of_untouched fun place hknob => Store.sight?_of_masking hsound hmasked hknob
    | made _ g place _ hreuse hanswer hplace hslash hgains hpath howned =>
      rw [hanswer]
      have hknob : before.resolve b.knob ≠ .ok place := fun h => hapart place h hplace
      obtain ⟨hself, hothers⟩ :=
        sight?_of_discard hgains hknob hmasked hplace hslash hpath howned
      rw [← Bool.or_false b.keepFixture] at hself
      exact leaves_of_completed hreuse hplace hself hothers
  have hleft : ∀ v : Run Disturbed τ,
      b.Steady (r.world.machine.store.masking b.knob) r.world.made v.world →
        b.LeavesIn before true v.world := by
    intro v hv
    obtain ⟨hmasked, hmade⟩ := hv
    rw [LeavesIn, hmade]
    cases hr with
    | adopted _ _ huntried howned =>
      obtain ⟨⟨hstore, -⟩, hnone⟩ := huntried
      rw [hstore] at hmasked
      rw [hnone]
      exact leaves_of_untouched fun place hknob => Store.sight?_of_masking hsound hmasked hknob
    | made _ g place _ hreuse hanswer hplace hslash hgains hpath howned =>
      rw [hanswer]
      have hknob : before.resolve b.knob ≠ .ok place := fun h => hapart place h hplace
      obtain ⟨hself, hothers⟩ := sight?_of_steady hgains hknob hmasked
      exact leaves_of_completed hreuse hplace (by simp [hself]) hothers
  have hleads : (b.runOverFixture (host platform faults) sink cache f).Leads
      (fun v => b.Steady (r.world.machine.store.masking b.knob) r.world.made v.world)
      (fun v => b.LeavesIn before false v.world) fun aborted v => b.LeavesIn before aborted v.world :=
    .unwinding hsteady hcleaned hcleaned hleft
  exact hleads r ⟨rfl, rfl⟩

theorem knob_cacheControl (w : Disturbed) :
    (b.cacheControl (host platform faults) w).knob = b.knob := by
  rw [cacheControl, knob]
  cases b.cache <;> rfl

theorem preserves_untried_memory (sink : Sink τ) (before : Store) :
    (b.runMemory (host platform faults) sink).Preserves fun r => Untried before r.world := by
  refine Action.Preserves.bind (Run.preserves_emit sink _) fun _ => ?_
  apply preserves_runMatrix sink
  intro part _ s _
  exact preserves_rig (Machine.preserves_memoryRig platform before s)

theorem leads_runFile (sink : Sink τ) (hsound : before.Sound)
    (hapart : ∀ place, before.resolve b.knob = .ok place →
      before.resolve b.config.file.path ≠ .ok place) :
    (b.runFile (host platform faults) sink).Leads (fun r => Untried before r.world)
      (fun r => b.LeavesIn before false r.world)
      fun aborted r => b.LeavesIn before aborted r.world := by
  have hemit (event : Event) : (Run.emit sink event).Leads
      (fun r : Run Disturbed τ => Untried before r.world) (fun r => Untried before r.world)
      fun aborted r => b.LeavesIn before aborted r.world :=
    .of_reaches (Run.preserves_emit sink event) fun _ _ h => leaves_of_untried h
  intro r hr
  have hcache := knob_cacheControl (b := b) platform faults r.world
  rw [runFile, Action.perform_bind, Action.perform_update]
  dsimp only
  generalize b.cacheControl (host platform faults) r.world = cache at hcache
  refine Action.Leads.bind (hemit _) (fun _ => ?_) r hr
  intro r hr
  rw [Action.perform_bind, Action.perform_update]
  dsimp only
  have hprepared := prepares_prepareFixture (b := b) platform faults hsound hr
  match b.prepareFixture (host platform faults) r.world, hprepared with
  | (.error e, w), hprepared =>
    let held (w : Disturbed) : Prop := ∀ aborted, b.LeavesIn before aborted w
    have hskip : (skipFile sink e).Preserves fun r : Run Disturbed τ => held r.world :=
      preserves_skipFile sink e
    have hheld : held w := by
      cases hprepared with
      | missing _ _ huntried => exact fun _ => leaves_of_untried huntried
      | refused _ _ hleaves => exact hleaves
    have hend := hskip { r with world := w } hheld
    dsimp only
    match (skipFile sink e).perform { r with world := w }, hend with
    | (.ok _, v), hend => exact hend false
    | (.error stop, v), hend => exact hend stop.aborts
  | (.ok f, w), hprepared =>
    exact leads_runOverFixture platform faults sink hsound hapart hcache f { r with world := w }
      hprepared

theorem leads_finish (sink : Sink τ) (before : Store) :
    (Run.emit sink (.finished completionBanner)).Leads
      (fun r : Run Disturbed τ => b.LeavesIn before false r.world)
      (fun r => b.LeavesIn before false r.world)
      fun aborted r => b.LeavesIn before aborted r.world := by
  intro r hr
  have hperform : (Run.emit sink (.finished completionBanner)).perform r =
      ((sink.receive (.finished completionBanner) r.sink).result.mapError
        fun failure => .failed (.output failure),
        ((Run.emit sink (.finished completionBanner)).perform r).2) := rfl
  rw [hperform]
  -- a sink that fails does not abort
  cases (sink.receive (.finished completionBanner) r.sink).result with
  | ok _ | error failure => exact hr

end

/-- A store with nothing but a knob. -/
def shelf : Store where
  entries := [(["k"], .file 0)]
  contents := #[ByteArray.empty]

def turning : Benchmark where
  config := { file := { path := "/f" } }
  cache := some ⟨"/k", true, .zero⟩

theorem eq_of_entry?_shelf {place : Path} {node : Nat}
    (h : shelf.entry? place = some (.file node)) : place = ["k"] ∧ node = 0 := by
  rw [Store.entry?] at h
  split at h
  · cases h
  · simp only [shelf, List.lookup_cons, List.lookup_nil] at h
    split at h
    · next hplace => exact ⟨by simpa using hplace, by simpa using h.symm⟩
    · cases h

theorem sound_shelf : shelf.Sound where
  stored := by
    intro place node h
    obtain ⟨-, rfl⟩ := eq_of_entry?_shelf h
    decide
  apart := by
    intro place other node h hother
    rw [(eq_of_entry?_shelf h).1, (eq_of_entry?_shelf hother).1]

end Benchmark

end AccessBench
