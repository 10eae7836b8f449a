import OpenApocLauncher.Launcher

namespace OpenApocLauncher

open PreloaderActivity Machine

namespace Launcher

def unpacking (s : Launcher) : Nat :=
  (s.queue ++ s.posted).countP fun task => task.owner = .preloader

/-- The games the preloader has started, and those its tasks will still start. -/
def launches (s : Launcher) : Nat := s.games + s.unpacking

/-- No game is outstanding while a task of the preloader is queued or writing, and at most one
game is. -/
def Exclusive (s : Launcher) : Prop :=
  (0 < s.games → ∀ task ∈ s.queue, task.owner ≠ .preloader) ∧ s.games ≤ 1

theorem exclusive_of_launches {s : Launcher} (h : s.launches ≤ 1) : s.Exclusive := by
  unfold launches unpacking at h
  rw [List.countP_append] at h
  refine ⟨?_, by omega⟩
  intro playing task mem owner
  have running : 0 < s.queue.countP fun task => task.owner = .preloader :=
    List.countP_pos_iff.mpr ⟨task, mem, by simpa using owner⟩
  omega

theorem launches_killed (s : Launcher) : s.killed.launches = 0 := rfl

theorem launches_background (io : Schedule) (s : Launcher) :
    (s.background io).launches = s.launches := by
  unfold background
  cases hq : s.queue with
  | nil => rfl
  | cons task rest =>
    simp only
    split
    · simp only [launches, unpacking, hq, List.countP_append, List.countP_cons, List.countP_nil]
      omega
    · split <;> simp only [launches, unpacking, hq, List.countP_append, List.countP_cons]

variable [Device]

theorem launches_enqueue_preloader (s : Launcher) (dataPath : String) :
    (s.enqueue .preloader dataPath).launches = s.launches + 1 := by
  simp only [launches, unpacking, enqueue, List.countP_append, List.countP_singleton]
  simp
  omega

theorem launches_enqueue_config (s : Launcher) (dataPath : String) :
    (s.enqueue .config dataPath).launches = s.launches := by
  simp [launches, unpacking, enqueue, List.countP_append]

theorem launches_configUnless (s : Launcher) (holds : Bool) :
    ((configUnless holds).foldl issue s).launches = s.launches := by
  cases holds <;> rfl

theorem launches_sanityActions (s : Launcher) (isoExists dataExists update : Bool)
    (localDataDir : String) :
    ((sanityActions isoExists dataExists update localDataDir).foldl issue s).launches =
      s.launches + 1 := by
  simp only [sanityActions, List.foldl_append, List.foldl_cons, List.foldl_nil]
  cases update with
  | true =>
    simp only [if_true, issue]
    rw [launches_enqueue_preloader, launches_configUnless, launches_configUnless]
  | false =>
    have started (t : Launcher) : (t.issue .startGame).launches = t.launches + 1 := by
      simp only [launches, issue, unpacking]
      omega
    simp only [Bool.false_eq_true, if_false]
    rw [started, launches_configUnless, launches_configUnless]

theorem launches_check (s : Launcher) (view : View) :
    (s.runUi (PreloaderActivity.checkSanity view)).launches ≤ s.launches + 1 := by
  unfold runUi
  cases h : (PreloaderActivity.checkSanity view).run ⟨s.mPrefs, []⟩ with
  | error e ui => simp [launches_killed]
  | ok u ui =>
    obtain ⟨isoExists, dataExists, update, localDataDir, _, _, _, _, rfl⟩ := checkSanity_ok h
    exact (launches_sanityActions { s with mPrefs := s.mPrefs } _ _ _ _).le

theorem launches_post (s : Launcher) : s.post.launches = s.launches := by
  cases hp : s.posted with
  | nil => simp [post, hp]
  | cons task rest =>
    rw [post_eq s hp]
    simp only [launches, unpacking, hp, List.countP_append, List.countP_cons, decide_eq_true_eq]
    omega

/-- Only the callers of `checkSanity` add a launch. -/
theorem launches_step (io : Schedule) (s : Launcher) (event : LauncherEvent) :
    (s.step io event).launches ≤ s.launches + (if event.check? = none then 0 else 1) := by
  cases h : event.check? with
  | some listed =>
    obtain ⟨configs, call⟩ := step_of_check io s h
    rw [call]
    exact launches_check { s with configs } _
  | none =>
    cases event with
    | create listed => simp [LauncherEvent.check?] at h
    | activityResult requestCode listed =>
      have other : requestCode ≠ REQCODE_CONFIG := by
        rintro rfl
        simp [LauncherEvent.check?] at h
      simp only [step, onActivityResult, if_neg other]
      split
      · simp only [launches, unpacking]
        omega
      · simp
    | pickDirectory path => simp [step, launches_enqueue_config]
    | selectIso path => exact le_rfl
    | background => simp [step, launches_background]
    | post => simp [step, launches_post]
    | kill => simp [step, launches_killed]
    | upgrade assets => simp [step, launches, unpacking, killed]
    | external tree => exact le_rfl

/-- `checkSanity` is called only while no game of the preloader is outstanding and none of its
tasks is queued, writing or waiting for its `onPostExecute`. -/
def CheckedAlone (s : Launcher) (event : LauncherEvent) : Prop :=
  event.check? = none ∨
    (s.games = 0 ∧ ∀ task ∈ s.queue ++ s.posted, task.owner ≠ .preloader)

instance (s : Launcher) (event : LauncherEvent) : Decidable (s.CheckedAlone event) :=
  inferInstanceAs (Decidable (_ ∨ _))

omit [Device] in
theorem launches_eq_zero_iff (s : Launcher) :
    s.launches = 0 ↔ s.games = 0 ∧ ∀ task ∈ s.queue ++ s.posted, task.owner ≠ .preloader := by
  unfold launches unpacking
  rw [Nat.add_eq_zero_iff, List.countP_eq_zero]
  simp

theorem launches_step_of_alone (io : Schedule) (s : Launcher) (event : LauncherEvent)
    (alone : s.CheckedAlone event) (h : s.launches ≤ 1) : (s.step io event).launches ≤ 1 := by
  have bound := launches_step io s event
  rcases alone with silent | idle
  · simp only [silent, if_true] at bound
    omega
  · rw [(launches_eq_zero_iff s).mpr idle] at bound
    split at bound <;> omega

/-- Unpacking and playing exclude each other in every state of a run whose calls of
`checkSanity` all come alone. -/
theorem exclusive_of_checkedAlone (io : Schedule) {start : Launcher} {events : List LauncherEvent}
    (games : start.games = 0)
    (tasks : ∀ task ∈ start.queue ++ start.posted, task.owner ≠ .preloader)
    (alone : Guarded (step io) CheckedAlone start events) :
    ∀ before, before <+: events → (run (step io) start before).Exclusive := by
  intro before isPrefix
  apply exclusive_of_launches
  have none := (launches_eq_zero_iff start).mpr ⟨games, tasks⟩
  have bounded := (alone.upTo isPrefix).invariant (fun s => s.launches ≤ 1)
    (launches_step_of_alone io) (by omega)
  exact bounded

end Launcher

section Concrete

attribute [local instance] emulator

def updateEvents : List LauncherEvent :=
  .create true :: List.replicate 6 .background ++ [.post]

theorem exclusive_update :
    (run (Launcher.step .quiet) (.equipped (.release [1] none)) updateEvents).Exclusive := by
  have alone : Guarded (Launcher.step .quiet) Launcher.CheckedAlone (.equipped (.release [1] none))
      (updateEvents ++ [.activityResult REQCODE_GAME true]) := by decide +kernel
  exact Launcher.exclusive_of_checkedAlone .quiet rfl (by decide) alone updateEvents
    (List.prefix_append _ _)

/-- The launcher is re-created while its first task is still queued: the game starts with the
second task behind it. -/
theorem not_exclusive_recreated :
    ¬(run (Launcher.step .quiet) (.equipped (.release [1] none))
      (.create true :: updateEvents)).Exclusive := by
  have playing : 0 < (run (Launcher.step .quiet) (.equipped (.release [1] none))
      (.create true :: updateEvents)).games := by decide +kernel
  have queued : ¬∀ task ∈ (run (Launcher.step .quiet) (.equipped (.release [1] none))
      (.create true :: updateEvents)).queue, task.owner ≠ .preloader := by decide +kernel
  exact fun exclusive => queued (exclusive.1 playing)

end Concrete

end OpenApocLauncher
