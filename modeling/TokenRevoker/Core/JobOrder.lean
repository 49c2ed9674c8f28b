import TokenRevoker.Core.Store

/-! In which order backups and rotations get the backup mutex. A periodic backup runs
with a generation that was current when it was captured, and a rotation makes every such
capture stale when it begins, so that no backup is left once the rotation swaps. How the
filter of a backup relates to the current one is a parameter. -/
namespace TokenRevoker

variable {g : Geometry}

namespace Store

/-- Who holds the backup mutex and who waits for it, in order. -/
def jobs (s : Store g) : List Job :=
  s.holder.elim s.queue fun held => held.1 :: s.queue

/-- A capture that a backup can still run with. It waits in the queue, sleeps before an attempt,
holds the mutex, or the interval has it. -/
def Known (s : Store g) (capture : Capture) : Prop :=
  s.interval = some capture ∨ (∃ n, (capture, n) ∈ s.retrying) ∨
    ∃ n, Job.periodic capture n ∈ s.jobs

/-- What holds of the mutexes and the captures in every state of a run, whatever fails.
`Fits` relates the filter of a backup that may still run to the current one. -/
structure InTurn (Fits : Nat → Nat → Prop) (s : Store g) : Prop where
  captured : ∀ capture, s.Known capture → capture.generation ≤ s.backups.generation ∧
    (capture.generation = s.backups.generation → s.rotating = none ∧ Fits capture.filter s.filter)
  /-- A rotation is inside `backupRotate` exactly while its job waits or runs. -/
  rotations : s.jobs.filter Job.isRotation =
    if s.rotating = some .backingUp then [.rotation s.filter] else []
  holds : ∀ job phase, s.holder = some (job, phase) → Fits job.filter s.filter ∧
    s.rotating ≠ some .swapping ∧ (phase = .promoting → job.isRotation = true)

variable {s t : Store g} {a : Action g} {Fits : Nat → Nat → Prop}

/-- An attempt only queues. -/
theorem attempt_frame (s : Store g) (capture : Capture) (n : Nat) :
    (s.attempt capture n).manager = s.manager ∧ (s.attempt capture n).backups = s.backups ∧
      (s.attempt capture n).disk = s.disk ∧ (s.attempt capture n).holder = s.holder ∧
      (s.attempt capture n).rotating = s.rotating := by
  unfold Store.attempt
  split_ifs <;> exact ⟨rfl, rfl, rfl, rfl, rfl⟩

theorem fail_backups (s : Store g) (job : Job) : (s.fail job).backups = s.backups := by
  cases job <;> rfl

theorem fail_holder (s : Store g) (job : Job) : (s.fail job).holder = none := by
  cases job <;> rfl

/-- A store in synchronous mode stays in it. -/
theorem Effect.sync (effect : Effect s a t) (h : s.backups.bufferEnabled = false) :
    t.backups.bufferEnabled = false := by
  cases effect with
  | called call isCall => rw [call.frame.1, h]
  | ticked | retried =>
      unfold Store.attempt
      split_ifs <;> exact h
  | abandoned job message hHolder => rw [fail_backups, h]
  | crashed => rfl
  | _ => exact h

theorem jobs_of_free (hFree : s.holder = none) : s.jobs = s.queue := by
  simp [jobs, hFree]

theorem jobs_of_held {job : Job} {phase : Phase g} (hHolder : s.holder = some (job, phase)) :
    s.jobs = job :: s.queue := by
  simp [jobs, hHolder]

theorem boot_inTurn (hRefl : ∀ n, Fits n n) (numItems : Nat) (periodic : Bool) (disk : Disk) :
    InTurn Fits (boot g numItems periodic disk) where
  captured := by
    rintro capture (hInterval | ⟨n, hRetrying⟩ | ⟨n, hJobs⟩)
    · simp only [boot] at hInterval
      split_ifs at hInterval
      cases hInterval
      exact ⟨le_rfl, fun _ => ⟨rfl, hRefl 0⟩⟩
    · cases hRetrying
    · cases hJobs
  rotations := rfl
  holds := by simp [boot]

/-- A step that begins and ends no rotation keeps the order if it brings in no new
capture and leaves the waiting rotations alone. -/
theorem InTurn.keep (h : InTurn Fits s) (hBackups : t.backups.generation = s.backups.generation)
    (hFilter : t.filter = s.filter) (hRotating : t.rotating = s.rotating)
    (hKnown : ∀ capture, t.Known capture → s.Known capture)
    (hJobs : t.jobs.filter Job.isRotation = s.jobs.filter Job.isRotation)
    (hHolds : ∀ job phase, t.holder = some (job, phase) → Fits job.filter s.filter ∧
      s.rotating ≠ some .swapping ∧ (phase = .promoting → job.isRotation = true)) :
    InTurn Fits t := by
  refine ⟨?_, ?_, ?_⟩
  · rw [hBackups, hRotating, hFilter]
    exact fun capture hCapture => h.captured capture (hKnown capture hCapture)
  · rw [hJobs, hRotating, hFilter]
    exact h.rotations
  · rw [hRotating, hFilter]
    exact hHolds

/-- Neither the mutexes nor the captures depend on the filters and the files. -/
theorem InTurn.congr (h : InTurn Fits s) (hBackups : t.backups.generation = s.backups.generation)
    (hFilter : t.filter = s.filter) (hInterval : t.interval = s.interval)
    (hRetrying : t.retrying = s.retrying) (hQueue : t.queue = s.queue) (hHolder : t.holder = s.holder)
    (hRotating : t.rotating = s.rotating) : InTurn Fits t := by
  have hJobs : t.jobs = s.jobs := by rw [jobs, jobs, hHolder, hQueue]
  refine h.keep hBackups hFilter hRotating ?_ (by rw [hJobs]) (hHolder ▸ h.holds)
  intro capture hCapture
  rwa [Known, hInterval, hRetrying, hJobs] at hCapture

theorem InTurn.attempt (h : InTurn Fits s) {capture : Capture}
    (hCapture : capture.generation = s.backups.generation →
      s.rotating = none ∧ Fits capture.filter s.filter) (n : Nat) : InTurn Fits (s.attempt capture n) := by
  unfold Store.attempt
  split_ifs with hFresh
  · have hJobs : ({ s with queue := s.queue ++ [.periodic capture n] } : Store g).jobs =
        s.jobs ++ [.periodic capture n] := by
      unfold jobs
      cases s.holder <;> rfl
    refine ⟨?_, ?_, h.holds⟩
    · rintro other (hInterval | hRetrying | ⟨k, hMem⟩)
      · exact h.captured other (Or.inl hInterval)
      · exact h.captured other (Or.inr (Or.inl hRetrying))
      · rw [hJobs] at hMem
        rcases List.mem_append.mp hMem with hMem | hMem
        · exact h.captured other (Or.inr (Or.inr ⟨k, hMem⟩))
        · cases List.mem_singleton.mp hMem
          exact ⟨hFresh.le, hCapture⟩
    · simpa [hJobs, Job.isRotation] using h.rotations
  · exact h

/-- The holder keeps its job while it moves on. -/
theorem InTurn.advance (h : InTurn Fits s) {job : Job} {phase phase' : Phase g} (disk : Disk)
    (hHolder : s.holder = some (job, phase)) (hPhase : phase' = .promoting → job.isRotation = true) :
    InTurn Fits { s with disk := disk, holder := some (job, phase') } := by
  have hJobs : ({ s with disk := disk, holder := some (job, phase') } : Store g).jobs =
      s.jobs := by simp [jobs, hHolder]
  refine h.keep rfl rfl rfl ?_ (by rw [hJobs]) ?_
  · simp only [Known, hJobs]
    exact fun _ hCapture => hCapture
  · intro job' phase'' hEq
    cases hEq
    obtain ⟨hFilter, hStage, -⟩ := h.holds job phase hHolder
    exact ⟨hFilter, hStage, hPhase⟩

/-- A periodic backup is over, or waits for its next attempt. -/
theorem InTurn.released (h : InTurn Fits s) {capture : Capture} {n : Nat} {phase : Phase g}
    (disk : Disk) (hHolder : s.holder = some (.periodic capture n, phase))
    (retrying : List (Capture × Nat))
    (hRetrying : ∀ entry ∈ retrying, entry ∈ s.retrying ∨ entry.1 = capture) :
    InTurn Fits { s with disk := disk, holder := none, retrying := retrying } := by
  have hJobs := jobs_of_held hHolder
  refine h.keep rfl rfl rfl ?_ ?_ (by simp)
  · rintro other (hInterval | ⟨k, hMem⟩ | ⟨k, hMem⟩)
    · exact Or.inl hInterval
    · rcases hRetrying _ hMem with hMem | rfl
      · exact Or.inr (Or.inl ⟨k, hMem⟩)
      · exact Or.inr (Or.inr ⟨n, by simp [hJobs]⟩)
    · have hQueue : Job.periodic other k ∈ s.queue := hMem
      exact Or.inr (Or.inr ⟨k, by simp [hJobs, hQueue]⟩)
  · change s.queue.filter Job.isRotation = _
    simp [hJobs, Job.isRotation]

/-- A rotation leaves `backupRotate`, whether its backup succeeded or not. This is where the
filters may part from the files. -/
theorem InTurn.leave (h : InTurn Fits s) {job : Job} {phase : Phase g} (disk : Disk)
    (hHolder : s.holder = some (job, phase)) (hJob : job.isRotation = true) :
    InTurn Fits { s with disk := disk, holder := none, rotating := some .swapping } := by
  have hRotations := h.rotations
  rw [jobs_of_held hHolder, List.filter_cons, if_pos hJob] at hRotations
  split_ifs at hRotations with hStage
  have hQueue : s.queue.filter Job.isRotation = [] := (List.cons.inj hRotations).2
  refine ⟨?_, by simpa [jobs] using hQueue, by simp⟩
  intro capture hCapture
  have hOld : s.Known capture := by
    rcases hCapture with hInterval | hRetrying | ⟨k, hMem⟩
    · exact Or.inl hInterval
    · exact Or.inr (Or.inl hRetrying)
    · have hQueue : Job.periodic capture k ∈ s.queue := hMem
      exact Or.inr (Or.inr ⟨k, by simp [jobs_of_held hHolder, hQueue]⟩)
  obtain ⟨hLe, hFresh⟩ := h.captured capture hOld
  refine ⟨hLe, fun hEq => ?_⟩
  have hNone := (hFresh hEq).1
  rw [hStage] at hNone
  cases hNone

theorem InTurn.fail (h : InTurn Fits s) {job : Job} {phase : Phase g}
    (hHolder : s.holder = some (job, phase)) : InTurn Fits (s.fail job) := by
  cases job with
  | periodic capture n =>
      refine h.released s.disk hHolder _ ?_
      intro entry hMem
      split_ifs at hMem
      · rcases List.mem_append.mp hMem with hMem | hMem
        · exact Or.inl hMem
        · exact Or.inr (by rw [List.mem_singleton.mp hMem])
      · exact Or.inl hMem
  | rotation filter => exact h.leave s.disk hHolder rfl

/-- A rotation that begins makes every capture stale. The generation is counted at once, before
the rotation waits for the mutex of the backups. -/
theorem InTurn.began (h : InTurn Fits s) (hFree : s.rotating = none) : InTurn Fits { s with
    waiting := s.waiting - 1
    manager := { s.manager with hasRotated := true }
    backups := { s.backups with generation := s.backups.generation + 1 }
    queue := s.queue ++ [.rotation s.filter]
    rotating := some .backingUp } := by
  have hRotations := h.rotations
  rw [if_neg (by simp [hFree])] at hRotations
  have hJobs : ({ s with queue := s.queue ++ [.rotation s.filter] } : Store g).jobs =
      s.jobs ++ [.rotation s.filter] := by
    unfold jobs
    cases s.holder <;> rfl
  refine ⟨?_, ?_, ?_⟩
  · intro capture hCapture
    have hOld : s.Known capture := by
      rcases hCapture with hInterval | hRetrying | ⟨k, hMem⟩
      · exact Or.inl hInterval
      · exact Or.inr (Or.inl hRetrying)
      · have hMem' : Job.periodic capture k ∈ s.jobs ++ [.rotation s.filter] := hJobs ▸ hMem
        exact Or.inr (Or.inr ⟨k, by simpa using hMem'⟩)
    have hLe := (h.captured capture hOld).1
    refine ⟨hLe.trans (Nat.le_succ _), fun hEq => ?_⟩
    have hEq' : capture.generation = s.backups.generation + 1 := hEq
    omega
  · change ({ s with queue := s.queue ++ [.rotation s.filter] } : Store g).jobs.filter _ = _
    rw [hJobs, List.filter_append, hRotations]
    rfl
  · intro job phase hHolder
    obtain ⟨hFilter, -, hPhase⟩ := h.holds job phase hHolder
    exact ⟨hFilter, by simp, hPhase⟩

/-- The first job of the queue gets the mutex. -/
theorem InTurn.opened (h : InTurn Fits s) (hRefl : ∀ n, Fits n n) {job : Job} {rest : List Job}
    (hFree : s.holder = none) (hQueue : s.queue = job :: rest)
    (hFresh : ∀ capture n, job = .periodic capture n → capture.generation = s.backups.generation) :
    InTurn Fits { s with queue := rest, holder := some (job, .opening) } := by
  have hJobs : s.jobs = job :: rest := by rw [jobs_of_free hFree, hQueue]
  have hNext : ({ s with queue := rest, holder := some (job, .opening) } : Store g).jobs =
      s.jobs := by rw [hJobs]; rfl
  have hJob : Fits job.filter s.filter ∧ s.rotating ≠ some .swapping := by
    cases job with
    | periodic capture n =>
        have hKnown : s.Known capture := Or.inr (Or.inr ⟨n, by simp [hJobs]⟩)
        obtain ⟨hNone, hFilter⟩ := (h.captured capture hKnown).2 (hFresh capture n rfl)
        exact ⟨hFilter, by simp [hNone]⟩
    | rotation filter =>
        have hRotations := h.rotations
        have hIs : (Job.rotation filter).isRotation = true := rfl
        rw [hJobs, List.filter_cons, if_pos hIs] at hRotations
        split_ifs at hRotations with hStage
        cases (List.cons.inj hRotations).1
        exact ⟨hRefl s.filter, by simp [hStage]⟩
  refine h.keep rfl rfl rfl ?_ (by rw [hNext]) ?_
  · simp only [Known, hNext]
    exact fun _ hCapture => hCapture
  · intro job' phase hEq
    cases hEq
    exact ⟨hJob.1, hJob.2, by simp⟩

/-- No backup of the old filter is left when a rotation swaps. -/
theorem InTurn.swapped (h : InTurn Fits s) (hRefl : ∀ n, Fits n n) (hStage : s.rotating = some .swapping) :
    InTurn Fits { s with
      manager := s.manager.swap
      filter := s.filter + 1
      interval := s.interval.map fun _ => ⟨s.filter + 1, s.backups.generation⟩
      rotating := none } := by
  have hFree : s.holder = none := by
    cases hHolder : s.holder with
    | none => rfl
    | some held => exact absurd hStage (h.holds held.1 held.2 hHolder).2.1
  have hRotations := h.rotations
  rw [if_neg (by simp [hStage])] at hRotations
  refine ⟨?_, hRotations, ?_⟩
  · rintro capture (hInterval | hOld)
    · obtain ⟨old, -, rfl⟩ := Option.map_eq_some_iff.mp hInterval
      exact ⟨le_rfl, fun _ => ⟨rfl, hRefl _⟩⟩
    · obtain ⟨hLe, hFresh⟩ := h.captured capture (Or.inr hOld)
      refine ⟨hLe, fun hEq => ?_⟩
      have hNone := (hFresh hEq).1
      rw [hStage] at hNone
      cases hNone
  · simp [hFree]

theorem Effect.inTurn (effect : Effect s a t) (hRefl : ∀ n, Fits n n) (h : InTurn Fits s) :
    InTurn Fits t := by
  cases effect with
  | called call isCall =>
      obtain ⟨hBackups, hFilter, hInterval, hRetrying, hQueue, hHolder, hRotating, -⟩ := call.frame
      exact h.congr (congrArg _ hBackups) hFilter hInterval hRetrying hQueue hHolder hRotating
  | requested => exact h.keep rfl rfl rfl (fun _ hCapture => hCapture) rfl h.holds
  | began hFree => exact h.began hFree
  | ticked capture hInterval => exact h.attempt (h.captured capture (Or.inl hInterval)).2 0
  | retried capture n rest hRetrying =>
      have hKnown : s.Known capture := Or.inr (Or.inl ⟨n, by simp [hRetrying]⟩)
      have hRest : InTurn Fits { s with retrying := rest } := by
        refine h.keep rfl rfl rfl ?_ rfl h.holds
        rintro other (hInterval | ⟨k, hMem⟩ | hJobs)
        · exact Or.inl hInterval
        · exact Or.inr (Or.inl ⟨k, by rw [hRetrying]; exact List.mem_cons_of_mem _ hMem⟩)
        · exact Or.inr (Or.inr hJobs)
      exact hRest.attempt (h.captured capture hKnown).2 n
  | skipped capture n rest hFree hQueue =>
      have hJobs : s.jobs = .periodic capture n :: rest := by
        rw [jobs_of_free hFree, hQueue]
      have hNext : ({ s with queue := rest } : Store g).jobs = rest := jobs_of_free hFree
      refine h.keep rfl rfl rfl ?_ ?_ h.holds
      · rintro other (hInterval | hRetrying | ⟨k, hMem⟩)
        · exact Or.inl hInterval
        · exact Or.inr (Or.inl hRetrying)
        · rw [hNext] at hMem
          exact Or.inr (Or.inr ⟨k, by simp [hJobs, hMem]⟩)
      · simp [hNext, hJobs, Job.isRotation]
  | opened job rest hFree hQueue hFresh => exact h.opened hRefl hFree hQueue hFresh
  | handed job filter hHolder hLookup => exact h.advance s.disk hHolder (by simp)
  | written job handed live captured hHolder hLookup hFrom hTo =>
      exact h.advance s.disk hHolder (by simp)
  | synced job bytes hHolder => exact h.advance s.disk hHolder (by simp)
  | closed job bytes hHolder => exact h.advance s.disk hHolder (by simp)
  | abandoned job message hHolder => exact h.fail hHolder
  | renamed job bytes hHolder => exact h.advance _ hHolder (by simp)
  | cleared job hHolder =>
      cases job with
      | periodic capture n =>
          exact h.released _ hHolder s.retrying fun _ hMem => Or.inl hMem
      | rotation filter => exact h.advance _ hHolder fun _ => rfl
  | promoted job hHolder =>
      exact h.leave _ hHolder ((h.holds job _ hHolder).2.2 rfl)
  | swapped hStage => exact h.swapped hRefl hStage
  | crashed => exact boot_inTurn hRefl _ _ _

end Store

end TokenRevoker
