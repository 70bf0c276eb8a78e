import BenchPod.Recovery.Ladder

/-!
# The limits of the recovery ladder

Within one boot the rings and the counters keep every limit.  A reset loses them, so over a reset only
the number of resets stays limited: the steps of the boot before it are forgotten.
-/

namespace BenchPod.Recovery

namespace Note

/-- Did the poll find the captures working? -/
def working : Note → Bool
  | .boot => false
  | .poll working _ => working

/-- Was this step taken? -/
def takes (a : RecoveryAction) : Note → Bool
  | .boot => false
  | .poll _ taken => taken == a

end Note

/-- The times of a step in a log. -/
def times (a : RecoveryAction) (log : List Entry) : List Nat :=
  (log.filter fun entry => entry.note.takes a).map Entry.time

/-- The entries since the last boot. -/
def sinceBoot (log : List Entry) : List Entry := log.takeWhile fun entry => entry.note ≠ .boot

/-- The entries since captures last worked. -/
def episode (log : List Entry) : List Entry := log.takeWhile fun entry => !entry.note.working

/-- A stretch of polls that all found the captures working is long enough. -/
def Healthy (log : List Entry) : Prop :=
  ∃ stretch, stretch <:+: log ∧ (∀ entry ∈ stretch, entry.note.working) ∧
    ∃ early ∈ stretch, ∃ late ∈ stretch, early.time + recoveryHealthyMs.toNat ≤ late.time

/-- Few resets without health. -/
def ResetsLimited (log : List Entry) : Prop :=
  ∀ part, part <:+: log → ¬Healthy part → (times .mcuReset part).length ≤ recoveryResetsMax.toNat

/-- The limits of the ladder, for a log or a part of it. -/
structure KeepsLimits (log : List Entry) : Prop where
  reloads_per_hour : ∀ since, (times .ice40Reload log).countP
    (fun time => since ≤ time ∧ time < since + recoveryHourMs.toNat) ≤ recoveryReloadsPerHour
  eths_per_hour : ∀ since, (times .ethRestart log).countP
    (fun time => since ≤ time ∧ time < since + recoveryHourMs.toNat) ≤ recoveryEthPerHour
  eths_apart : (times .ethRestart log).Pairwise (Apart recoveryEthGapMs)
  reloads_apart : ∀ part, part <:+: log → (∀ entry ∈ part, ¬entry.note.working) →
    (times .ice40Reload part).Pairwise (Apart recoveryReloadGapMs)
  reloads_per_episode : ∀ part, part <:+: log → (∀ entry ∈ part, ¬entry.note.working) →
    (times .ice40Reload part).length ≤ recoveryReloadsPerEpisode.toNat
  resets : ResetsLimited log

section Times

variable {a : RecoveryAction} {time : Nat} {working : Bool} {log part : List Entry}

theorem times_cons (a taken : RecoveryAction) (time : Nat) (working : Bool) (log : List Entry) :
    times a (⟨time, .poll working taken⟩ :: log) = if taken = a then time :: times a log else times a log := by
  by_cases same : taken = a
  · rw [if_pos same, times, List.filter_cons_of_pos (by simpa [Note.takes] using same)]
    rfl
  · rw [if_neg same, times, List.filter_cons_of_neg (by simpa [Note.takes] using same)]
    rfl

theorem times_append (front back : List Entry) : times a (front ++ back) = times a front ++ times a back := by
  rw [times, List.filter_append, List.map_append]
  rfl

theorem mem_times (member : time ∈ times a log) : ∃ entry ∈ log, entry.time = time := by
  obtain ⟨entry, kept, rfl⟩ := List.mem_map.mp member
  exact ⟨entry, List.mem_of_mem_filter kept, rfl⟩

theorem times_sublist (sub : part.Sublist log) : (times a part).Sublist (times a log) := (sub.filter _).map _

theorem times_sorted (sorted : (log.map Entry.time).Pairwise (· ≥ ·)) : (times a log).Pairwise (· ≥ ·) :=
  sorted.sublist (List.filter_sublist.map _)

end Times

/-- When a step is due. -/
inductive Due (r : RecoveryT) (nowMs failMs resets : Word) : RecoveryAction → Prop
  | none : Due r nowMs failMs resets .none
  | ice40Reload (failing : failMs ≠ 0) (more : r.episodeReloads < recoveryReloadsPerEpisode)
      (few : inLastHour r.reloadTimes r.reloadN nowMs < recoveryReloadsPerHour)
      (waited : r.episodeReloads = 0 ∨ recoveryReloadGapMs ≤ nowMs - r.lastReloadMs) :
      Due r nowMs failMs resets .ice40Reload
  | mcuReset (failing : failMs ≠ 0) (left : resets < recoveryResetsMax) : Due r nowMs failMs resets .mcuReset
  | ethRestart (few : inLastHour r.ethTimes r.ethN nowMs < recoveryEthPerHour)
      (waited : r.ethN = 0 ∨ recoveryEthGapMs ≤ nowMs - r.lastEthMs) : Due r nowMs failMs resets .ethRestart

theorem captureStep_due (r : RecoveryT) (nowMs failMs resets : Word) :
    Due r nowMs failMs resets (captureStep r nowMs failMs resets) := by
  simp only [captureStep]
  split
  · exact .none
  rename_i long
  have failing : failMs ≠ 0 := by
    rintro rfl
    exact long (by decide)
  split
  · rename_i more
    split
    · rename_i waited
      rw [moreReloads, Bool.and_eq_true, decide_eq_true_eq, reloadAllowed, decide_eq_true_eq] at more
      exact .ice40Reload failing more.1 more.2 waited
    · exact .none
  · split
    · rename_i due
      exact .mcuReset failing due.1
    · exact .none

theorem linkStep_due (r : RecoveryT) (nowMs failMs linkDownMs resets : Word) :
    Due r nowMs failMs resets (linkStep r nowMs linkDownMs) := by
  rw [linkStep]
  split
  · rename_i due
    exact .ethRestart due.2.2 due.2.1
  · exact .none

theorem recoveryPoll_due (r : RecoveryT) (nowMs failMs linkDownMs resets : Word) :
    Due (noteHealth r nowMs failMs resets).1 nowMs failMs (noteHealth r nowMs failMs resets).2
      (recoveryPoll r nowMs failMs linkDownMs resets).2 := by
  simp only [recoveryPoll]
  split
  · exact linkStep_due ..
  · exact captureStep_due ..

/-- The newest polls found the captures working, from this moment on. -/
def WorkingSince (clock : Nat → Word) (since : Word) (log : List Entry) : Prop :=
  ∃ stretch, stretch <+: log ∧ (∀ entry ∈ stretch, entry.note.working) ∧ ∃ early ∈ stretch, since = clock early.time

/-- The state of the ladder knows what this boot's log says. -/
structure Tracks (clock : Nat → Word) (r : RecoveryT) (log : List Entry) : Prop where
  reloads : Limiter r.reloadTimes r.reloadN clock recoveryHourMs (times .ice40Reload log)
  eths : Limiter r.ethTimes r.ethN clock recoveryHourMs (times .ethRestart log)
  eths_apart : Gapped clock recoveryEthGapMs r.lastEthMs (times .ethRestart log)
  reloads_apart : Gapped clock recoveryReloadGapMs r.lastReloadMs (times .ice40Reload (episode log))
  episode_eq : r.episodeReloads.toNat = (times .ice40Reload (episode log)).length
  episode_le : r.episodeReloads.toNat ≤ recoveryReloadsPerEpisode.toNat
  healthy : r.healthyValid → WorkingSince clock r.healthySinceMs log

namespace Tracks

variable {clock : Nat → Word} {r : RecoveryT} {log : List Entry} {time : Nat} {failMs linkDownMs resets : Word}
  {working : Bool}

theorem init (clock : Nat → Word) (nowMs : Word) : Tracks clock (recoveryInit nowMs) [] where
  reloads := .empty _ _ _
  eths := .empty _ _ _
  eths_apart := .empty _ _ _
  reloads_apart := .empty _ _ _
  episode_eq := rfl
  episode_le := Nat.zero_le _
  healthy := by simp [recoveryInit]

theorem episode_nil (tracks : Tracks clock r log) (valid : r.healthyValid) : episode log = [] := by
  obtain ⟨stretch, ⟨rest, rfl⟩, working, early, member, -⟩ := tracks.healthy valid
  cases stretch with
  | nil => cases member
  | cons entry stretch =>
    rw [episode, List.cons_append, List.takeWhile_cons_of_neg]
    simpa using working entry (List.mem_cons_self ..)

theorem episode_working (time : Nat) (a : RecoveryAction) (log : List Entry) :
    episode (⟨time, .poll true a⟩ :: log) = [] := rfl

theorem times_episode {a : RecoveryAction} (other : a ≠ .ice40Reload) (time : Nat) (working : Bool)
    (log : List Entry) : times .ice40Reload (episode (⟨time, .poll working a⟩ :: log)) =
      times .ice40Reload (episode (⟨time, .poll working .none⟩ :: log)) := by
  cases working with
  | true => rfl
  | false =>
    change times _ (⟨time, .poll false a⟩ :: episode log) = times _ (⟨time, .poll false .none⟩ :: episode log)
    rw [times_cons, if_neg other, times_cons, if_neg (by decide)]

theorem workingSince_step {since : Word} (healthy : WorkingSince clock since (⟨time, .poll working .none⟩ :: log))
    (a : RecoveryAction) : WorkingSince clock since (⟨time, .poll working a⟩ :: log) := by
  obtain ⟨stretch, ⟨rest, stretch_eq⟩, all, early, member, since_eq⟩ := healthy
  cases stretch with
  | nil => cases member
  | cons entry stretch =>
    obtain ⟨rfl, rfl⟩ := List.cons.inj stretch_eq
    have head := all _ (List.mem_cons_self ..)
    refine ⟨⟨time, .poll working a⟩ :: stretch, ⟨rest, rfl⟩, ?_, ?_⟩
    · rintro entry (_ | ⟨_, later⟩)
      · exact head
      · exact all entry (List.mem_cons_of_mem _ later)
    · rcases List.mem_cons.mp member with rfl | later
      · exact ⟨_, List.mem_cons_self .., since_eq⟩
      · exact ⟨early, List.mem_cons_of_mem _ later, since_eq⟩

theorem episode_failing (time : Nat) (a : RecoveryAction) (log : List Entry) :
    episode (⟨time, .poll false a⟩ :: log) = ⟨time, .poll false a⟩ :: episode log := rfl

/-- A poll keeps track of health, before it takes a step. -/
theorem noteHealth (tracks : Tracks clock r log) (time : Nat) (failMs resets : Word) :
    Tracks clock (noteHealth r (clock time) failMs resets).1 (⟨time, .poll (failMs = 0) .none⟩ :: log) := by
  have reloads_eq (log : List Entry) : times .ice40Reload (⟨time, .poll (failMs = 0) .none⟩ :: log) =
      times .ice40Reload log := by rw [times_cons, if_neg (by decide)]
  have eths_eq : times .ethRestart (⟨time, .poll (failMs = 0) .none⟩ :: log) = times .ethRestart log := by
    rw [times_cons, if_neg (by decide)]
  by_cases working : failMs = 0
  · have episode_eq : episode (⟨time, .poll (failMs = 0) .none⟩ :: log) = [] := by
      rw [decide_eq_true working, episode_working]
    by_cases valid : r.healthyValid
    · have reloads_none : r.episodeReloads.toNat = 0 := by
        rw [tracks.episode_eq, tracks.episode_nil valid]
        rfl
      rw [Recovery.noteHealth, if_pos working, if_pos valid]
      refine ⟨?_, ?_, ?_, ?_, ?_, tracks.episode_le, fun _ => ?_⟩
      · rw [reloads_eq]
        exact tracks.reloads
      · rw [eths_eq]
        exact tracks.eths
      · rw [eths_eq]
        exact tracks.eths_apart
      · rw [episode_eq]
        exact .empty _ _ _
      · rw [episode_eq, reloads_none]
        rfl
      · obtain ⟨stretch, ⟨rest, rfl⟩, all, early, member, since⟩ := tracks.healthy valid
        refine ⟨_ :: stretch, ⟨rest, rfl⟩, ?_, early, List.mem_cons_of_mem _ member, since⟩
        rintro entry (_ | ⟨_, later⟩)
        · exact decide_eq_true working
        · exact all entry later
    · rw [Recovery.noteHealth, if_pos working, if_neg valid]
      refine ⟨?_, ?_, ?_, ?_, ?_, Nat.zero_le _, fun _ => ?_⟩
      · rw [reloads_eq]
        exact tracks.reloads
      · rw [eths_eq]
        exact tracks.eths
      · rw [eths_eq]
        exact tracks.eths_apart
      · rw [episode_eq]
        exact .empty _ _ _
      · rw [episode_eq]
        rfl
      · refine ⟨[_], ⟨log, rfl⟩, ?_, _, List.mem_singleton_self _, rfl⟩
        simpa [Note.working] using working
  · have episode_eq : episode (⟨time, .poll (failMs = 0) .none⟩ :: log) =
        ⟨time, .poll (failMs = 0) .none⟩ :: episode log := by
      rw [decide_eq_false working, episode_failing]
    rw [Recovery.noteHealth, if_neg working]
    refine ⟨?_, ?_, ?_, ?_, ?_, tracks.episode_le, fun valid => by simp at valid⟩
    · rw [reloads_eq]
      exact tracks.reloads
    · rw [eths_eq]
      exact tracks.eths
    · rw [eths_eq]
      exact tracks.eths_apart
    · rw [episode_eq, reloads_eq]
      exact tracks.reloads_apart
    · rw [episode_eq, reloads_eq]
      exact tracks.episode_eq

/-- A step that is due is taken and reported. -/
theorem done {a : RecoveryAction} (tracks : Tracks clock r (⟨time, .poll (failMs = 0) .none⟩ :: log))
    (due : Due r (clock time) failMs resets a) (sorted : (log.map Entry.time).Pairwise (· ≥ ·))
    (past : ∀ entry ∈ log, entry.time ≤ time) (early : time < 4294967296)
    (passed : ∀ earlier ≤ time, (clock time - clock earlier).toNat = time - earlier) :
    Tracks clock (recoveryDone r (clock time) resets a).1 (⟨time, .poll (failMs = 0) a⟩ :: log) := by
  obtain ⟨reloads, eths, eths_apart, reloads_apart, episode_eq, episode_le, healthy⟩ := tracks
  have past_times (a : RecoveryAction) {earlier : Nat} (member : earlier ∈ times a log) : earlier ≤ time := by
    obtain ⟨entry, entry_mem, rfl⟩ := mem_times member
    exact past entry entry_mem
  have passed_times (a : RecoveryAction) {earlier : Nat} (member : earlier ∈ times a log) :=
    passed earlier (past_times a member)
  have soon : time < 1194 * recoveryHourMs.toNat := Nat.lt_trans early (by decide)
  rw [times_cons, if_neg (by decide)] at reloads eths eths_apart
  cases due with
  | none =>
    refine ⟨?_, ?_, ?_, reloads_apart, episode_eq, episode_le, healthy⟩
    all_goals rwa [times_cons, if_neg (by decide)]
  | ice40Reload failing more few waited =>
    have same : (decide (failMs = 0)) = false := decide_eq_false failing
    rw [same, episode_failing] at reloads_apart episode_eq
    rw [times_cons, if_neg (by decide)] at reloads_apart episode_eq
    have count : (r.episodeReloads + 1).toNat = r.episodeReloads.toNat + 1 := by
      have small : r.episodeReloads.toNat < 2 := more
      rw [BitVec.toNat_add]
      exact Nat.mod_eq_of_lt (by change r.episodeReloads.toNat + 1 < 4294967296; omega)
    have part : (episode log).Sublist log := List.takeWhile_sublist _
    refine ⟨?_, ?_, ?_, ?_, ?_, ?_, ?_⟩
    · rw [times_cons, if_pos rfl]
      exact reloads.admit (times_sorted sorted) (fun _ => past_times _) (fun _ => passed_times _) few soon (by decide)
    · rwa [times_cons, if_neg (by decide)]
    · rwa [times_cons, if_neg (by decide)]
    · rw [same, episode_failing, times_cons, if_pos rfl]
      refine reloads_apart.admit ?_ ?_ ?_
      · intro earlier member
        exact past_times _ ((times_sublist part).subset member)
      · intro earlier member
        exact passed_times _ ((times_sublist part).subset member)
      · refine waited.imp_left fun none => ?_
        rw [← List.length_eq_zero_iff, ← episode_eq, none]
        rfl
    · rw [same, episode_failing, times_cons, if_pos rfl, List.length_cons, ← episode_eq]
      exact count
    · simp only [recoveryDone, count]
      exact more
    · intro valid
      exact workingSince_step (healthy valid) _
  | mcuReset failing left =>
    refine ⟨?_, ?_, ?_, ?_, ?_, episode_le, fun valid => workingSince_step (healthy valid) _⟩
    · rwa [times_cons, if_neg (by decide)]
    · rwa [times_cons, if_neg (by decide)]
    · rwa [times_cons, if_neg (by decide)]
    · rwa [times_episode (by decide)]
    · rwa [times_episode (by decide)]
  | ethRestart few waited =>
    refine ⟨?_, ?_, ?_, ?_, ?_, episode_le, fun valid => workingSince_step (healthy valid) _⟩
    · rwa [times_cons, if_neg (by decide)]
    · rw [times_cons, if_pos rfl]
      exact eths.admit (times_sorted sorted) (fun _ => past_times _) (fun _ => passed_times _) few soon (by decide)
    · rw [times_cons, if_pos rfl]
      refine eths_apart.admit (fun _ => past_times _) (fun _ => passed_times _) (waited.imp_left fun none => ?_)
      rw [← List.length_eq_zero_iff, ← eths.recent.count_eq, none]
      rfl
    · rwa [times_episode (by decide)]
    · rwa [times_episode (by decide)]

theorem noted (tracks : Tracks clock r log) (limitNoted : Bool) : Tracks clock { r with limitNoted } log :=
  ⟨tracks.reloads, tracks.eths, tracks.eths_apart, tracks.reloads_apart, tracks.episode_eq, tracks.episode_le,
    tracks.healthy⟩

theorem exhausted (tracks : Tracks clock r log) (nowMs failMs resets : Word) :
    Tracks clock (recoveryExhausted r nowMs failMs resets).1 log := by
  rw [recoveryExhausted]
  split
  · exact tracks
  · split
    · exact tracks
    · exact tracks.noted true

end Tracks

theorem noteHealth_resets (r : RecoveryT) (nowMs failMs resets : Word) :
    (noteHealth r nowMs failMs resets).2 = resets ∨
      (noteHealth r nowMs failMs resets).2 = 0 ∧ failMs = 0 ∧ r.healthyValid ∧
        recoveryHealthyMs ≤ nowMs - r.healthySinceMs := by
  rw [noteHealth]
  split
  · rename_i working
    cases valid : r.healthyValid with
    | true =>
      by_cases clears : resets ≠ 0 ∧ recoveryHealthyMs ≤ nowMs - r.healthySinceMs
      · exact .inr ⟨by simp [clears], working, rfl, clears.2⟩
      · left
        simp only [if_true, if_neg clears]
    | false =>
      left
      have none_passed : ¬recoveryHealthyMs ≤ nowMs - nowMs := by
        rw [BitVec.sub_self]
        decide
      simp only [Bool.false_eq_true, if_false, if_neg (not_and_of_not_right _ none_passed)]
  · exact .inl rfl

theorem Healthy.mono {part log : List Entry} (healthy : Healthy part) (inside : part <:+: log) : Healthy log := by
  obtain ⟨stretch, within, rest⟩ := healthy
  exact ⟨stretch, within.trans inside, rest⟩

/-- Everything that holds at the end of a run. -/
structure Sound (watch : Watch) (now : Nat) : Prop where
  tracks : Tracks (clockAt watch.start) watch.r (sinceBoot watch.log)
  sorted : (watch.log.map Entry.time).Pairwise (· ≥ ·)
  past : ∀ entry ∈ watch.log, entry.time ≤ now
  sane : ∀ entry ∈ watch.log, entry.note.working → entry.note.takes .mcuReset = false
  resets : ∀ part, part <+: watch.log → ¬Healthy part →
    (times .mcuReset part).length ≤ recoveryResetsMax.toNat ∧ (times .mcuReset part).length ≤ watch.resets.toNat

namespace Sound

variable {watch : Watch} {now time : Nat}

theorem init (start resets : Word) : Sound (Watch.init start resets) 0 where
  tracks := .init _ _
  sorted := .nil
  past := by simp [Watch.init]
  sane := by simp [Watch.init]
  resets := by
    intro part inside _
    obtain rfl := List.prefix_nil.mp inside
    exact ⟨Nat.zero_le _, Nat.zero_le _⟩

theorem later (sound : Sound watch now) (after : now ≤ time) : Sound watch time :=
  { sound with past := fun entry member => Nat.le_trans (sound.past entry member) after }

theorem sorted_cons (sound : Sound watch now) (note : Note) :
    ((⟨now, note⟩ :: watch.log).map Entry.time).Pairwise (· ≥ ·) := by
  refine List.pairwise_cons.mpr ⟨?_, sound.sorted⟩
  intro earlier member
  obtain ⟨entry, entry_mem, rfl⟩ := List.mem_map.mp member
  exact sound.past entry entry_mem

theorem past_cons (sound : Sound watch now) (note : Note) :
    ∀ entry ∈ (⟨now, note⟩ : Entry) :: watch.log, entry.time ≤ now := by
  rintro entry (_ | ⟨_, member⟩)
  · exact Nat.le_refl _
  · exact sound.past entry member

theorem health_clears (sound : Sound watch now) (valid : watch.r.healthyValid) (early : now < 4294967296)
    (long : recoveryHealthyMs ≤ clockAt watch.start now - watch.r.healthySinceMs) {part : List Entry}
    (inside : part <+: watch.log) {a : RecoveryAction} (unhealthy : ¬Healthy (⟨now, .poll true a⟩ :: part)) :
    times .mcuReset part = [] := by
  obtain ⟨stretch, within, all, first, first_mem, since_eq⟩ := sound.tracks.healthy valid
  have stretch_log : stretch <+: watch.log := within.trans (List.takeWhile_prefix _)
  rcases List.prefix_or_prefix_of_prefix inside stretch_log with short | whole
  · rw [times, List.map_eq_nil_iff, List.filter_eq_nil_iff]
    intro entry member
    rw [sound.sane entry (inside.subset member) (all entry (short.subset member))]
    exact Bool.false_ne_true
  · refine absurd ⟨⟨now, .poll true a⟩ :: stretch, ?_, ?_, first, List.mem_cons_of_mem _ first_mem, _,
      List.mem_cons_self .., ?_⟩ unhealthy
    · exact (List.cons_prefix_cons.mpr ⟨rfl, whole⟩).isInfix
    · rintro entry (_ | ⟨_, member⟩)
      · rfl
      · exact all entry member
    · have before := sound.past first (stretch_log.subset first_mem)
      rw [since_eq, BitVec.le_def, clockAt_sub before] at long
      have bound := Nat.mod_le (now - first.time) 4294967296
      change first.time + recoveryHealthyMs.toNat ≤ now
      have positive : 0 < recoveryHealthyMs.toNat := by decide
      omega

theorem poll (sound : Sound watch now) (early : now < 4294967296) (failMs linkDownMs : Word) :
    Sound (watch.step (.poll now failMs linkDownMs)) now := by
  have due := recoveryPoll_due watch.r (clockAt watch.start now) failMs linkDownMs watch.resets
  have noted := sound.tracks.noteHealth now failMs watch.resets
  have cleared := noteHealth_resets watch.r (clockAt watch.start now) failMs watch.resets
  simp only [recoveryPoll] at due
  simp only [Watch.step, recoveryPoll]
  generalize Recovery.noteHealth watch.r (clockAt watch.start now) failMs watch.resets = health at *
  obtain ⟨r, resets⟩ := health
  simp only at due noted cleared ⊢
  generalize (if captureStep r (clockAt watch.start now) failMs resets = .none then
    linkStep r (clockAt watch.start now) linkDownMs
    else captureStep r (clockAt watch.start now) failMs resets) = a at *
  have boot_past : ∀ entry ∈ sinceBoot watch.log, entry.time ≤ now := fun entry member =>
    sound.past entry ((List.takeWhile_sublist _).subset member)
  constructor
  · exact noted.done due (sound.sorted.sublist ((List.takeWhile_sublist _).map _)) boot_past early
      fun earlier before => by rw [clockAt_sub before, Nat.mod_eq_of_lt (by omega)]
  · exact sound.sorted_cons _
  · exact sound.past_cons _
  · rintro entry (_ | ⟨_, member⟩) working
    · have works : failMs = 0 := by simpa [Note.working] using working
      cases due with
      | mcuReset failing _ => exact absurd works failing
      | none | ice40Reload | ethRestart => rfl
    · exact sound.sane entry member working
  · intro part inside unhealthy
    cases part with
    | nil => exact ⟨Nat.zero_le _, Nat.zero_le _⟩
    | cons entry part =>
      obtain ⟨rfl, within⟩ := List.cons_prefix_cons.mp inside
      have bounds := sound.resets part within fun healthy => unhealthy (healthy.mono (List.suffix_cons _ _).isInfix)
      rw [times_cons]
      rcases cleared with rfl | ⟨rfl, works, valid, long⟩
      · cases due with
        | mcuReset failing left =>
          have few : watch.resets.toNat < 2 := left
          have count : (watch.resets + 1).toNat = watch.resets.toNat + 1 := by
            rw [BitVec.toNat_add]
            exact Nat.mod_eq_of_lt (by change watch.resets.toNat + 1 < 4294967296; omega)
          rw [if_pos rfl, List.length_cons]
          simp only [recoveryDone, count]
          exact ⟨Nat.le_trans (Nat.succ_le_succ bounds.2) few, Nat.succ_le_succ bounds.2⟩
        | none | ice40Reload | ethRestart => exact bounds
      · rw [decide_eq_true works] at unhealthy
        have none_taken := sound.health_clears valid early long within unhealthy
        cases due with
        | mcuReset failing _ => exact absurd works failing
        | none | ice40Reload | ethRestart =>
          rw [if_neg (by decide), none_taken]
          exact ⟨Nat.zero_le _, Nat.zero_le _⟩

theorem step (sound : Sound watch now) {event : Event} (after : now ≤ event.time) (early : event.time < 4294967296) :
    Sound (watch.step event) event.time := by
  replace sound := sound.later after
  cases event with
  | poll time failMs linkDownMs => exact sound.poll early failMs linkDownMs
  | exhausted time failMs => exact { sound with tracks := sound.tracks.exhausted _ _ _ }
  | boot time start =>
    refine ⟨.init _ _, sound.sorted_cons _, sound.past_cons _, ?_, ?_⟩
    · rintro entry (_ | ⟨_, member⟩) working
      · cases working
      · exact sound.sane entry member working
    · intro part inside unhealthy
      cases part with
      | nil => exact ⟨Nat.zero_le _, Nat.zero_le _⟩
      | cons entry part =>
        obtain ⟨rfl, within⟩ := List.cons_prefix_cons.mp inside
        exact sound.resets part within fun healthy => unhealthy (healthy.mono (List.suffix_cons _ _).isInfix)

end Sound

/-- The log of some sound state. -/
def Reached (log : List Entry) : Prop := ∃ watch now, Sound watch now ∧ watch.log = log

theorem Sound.step_log (watch : Watch) (event : Event) :
    (watch.step event).log = watch.log ∨ ∃ entry, (watch.step event).log = entry :: watch.log := by
  cases event with
  | poll => exact .inr ⟨_, rfl⟩
  | exhausted => exact .inl rfl
  | boot => exact .inr ⟨_, rfl⟩

theorem Sound.run {watch : Watch} {now : Nat} {events : List Event} (sound : Sound watch now)
    (reached : ∀ earlier, earlier <:+ watch.log → Reached earlier)
    (ordered : (events.map Event.time).Pairwise (· ≤ ·)) (after : ∀ event ∈ events, now ≤ event.time)
    (early : ∀ event ∈ events, event.time < 4294967296) :
    ∀ earlier, earlier <:+ (watch.run events).log → Reached earlier := by
  induction events generalizing watch now with
  | nil => exact reached
  | cons event events ih =>
    have next := sound.step (after event (List.mem_cons_self ..)) (early event (List.mem_cons_self ..))
    obtain ⟨first, rest⟩ := List.pairwise_cons.mp ordered
    refine ih next ?_ rest (fun later member => first _ (List.mem_map_of_mem member))
      fun later member => early later (List.mem_cons_of_mem _ member)
    intro earlier suffix
    rcases step_log watch event with same | ⟨entry, log_eq⟩
    · exact reached earlier (same ▸ suffix)
    · rw [log_eq, List.suffix_cons_iff] at suffix
      rcases suffix with rfl | suffix
      · exact ⟨_, _, next, log_eq⟩
      · exact reached earlier suffix

section Part

variable {part rest : List Entry}

theorem sinceBoot_append (same : ∀ entry ∈ part, entry.note ≠ .boot) (rest : List Entry) :
    sinceBoot (part ++ rest) = part ++ sinceBoot rest :=
  List.takeWhile_append_of_pos fun entry member => decide_eq_true (same entry member)

theorem episode_append (failing : ∀ entry ∈ part, ¬entry.note.working) (rest : List Entry) :
    episode (part ++ rest) = part ++ episode rest :=
  List.takeWhile_append_of_pos fun entry member => by simpa using failing entry member

theorem window_part {size : Nat} {ring : Vector Word size} {n period : Word} {clock : Nat → Word} {a : RecoveryAction}
    (limiter : Limiter ring n clock period (times a (part ++ rest))) (since : Nat) :
    (times a part).countP (fun time => since ≤ time ∧ time < since + period.toNat) ≤ size := by
  have bound := limiter.spaced.window since
  rw [times_append, List.countP_append] at bound
  exact Nat.le_trans (Nat.le_add_right _ _) bound

theorem Tracks.episode_part {clock : Nat → Word} {r : RecoveryT} (tracks : Tracks clock r (part ++ rest))
    (failing : ∀ entry ∈ part, ¬entry.note.working) :
    (times .ice40Reload part).Pairwise (Apart recoveryReloadGapMs) ∧
      (times .ice40Reload part).length ≤ recoveryReloadsPerEpisode.toNat := by
  have apart := tracks.reloads_apart.apart
  have few := tracks.episode_eq ▸ tracks.episode_le
  rw [episode_append failing, times_append] at apart few
  rw [List.length_append] at few
  exact ⟨(List.pairwise_append.mp apart).1, Nat.le_trans (Nat.le_add_right _ _) few⟩

theorem Reached.resets (reached : Reached (part ++ rest)) (unhealthy : ¬Healthy part) :
    (times .mcuReset part).length ≤ recoveryResetsMax.toNat := by
  obtain ⟨watch, now, sound, log_eq⟩ := reached
  exact (sound.resets part (log_eq ▸ List.prefix_append ..) unhealthy).1

theorem Reached.tracks (reached : Reached (part ++ rest)) (same : ∀ entry ∈ part, entry.note ≠ .boot) :
    ∃ clock r, Tracks clock r (part ++ sinceBoot rest) := by
  obtain ⟨watch, now, sound, log_eq⟩ := reached
  have tracks := sound.tracks
  rw [log_eq, sinceBoot_append same] at tracks
  exact ⟨_, _, tracks⟩

end Part

theorem infix_prefix {part log : List Entry} (inside : part <:+: log) : ∃ rest, part ++ rest <:+ log := by
  obtain ⟨front, rest, rfl⟩ := inside
  exact ⟨rest, front, (List.append_assoc ..).symm⟩

theorem resetsLimited {log : List Entry} (reached : ∀ earlier, earlier <:+ log → Reached earlier) :
    ResetsLimited log := by
  intro part inside unhealthy
  obtain ⟨rest, suffix⟩ := infix_prefix inside
  exact (reached _ suffix).resets unhealthy

theorem episode_limits {part log : List Entry} (reached : ∀ earlier, earlier <:+ log → Reached earlier)
    (inside : part <:+: log) (same : ∀ entry ∈ part, entry.note ≠ .boot)
    (failing : ∀ entry ∈ part, ¬entry.note.working) :
    (times .ice40Reload part).Pairwise (Apart recoveryReloadGapMs) ∧
      (times .ice40Reload part).length ≤ recoveryReloadsPerEpisode.toNat := by
  obtain ⟨rest, suffix⟩ := infix_prefix inside
  obtain ⟨clock, r, tracks⟩ := (reached _ suffix).tracks same
  exact tracks.episode_part failing

theorem keepsLimits {part log : List Entry} (reached : ∀ earlier, earlier <:+ log → Reached earlier)
    (inside : part <:+: log) (same : ∀ entry ∈ part, entry.note ≠ .boot) : KeepsLimits part := by
  obtain ⟨rest, suffix⟩ := infix_prefix inside
  obtain ⟨clock, r, tracks⟩ := (reached _ suffix).tracks same
  have episode_part {inner : List Entry} (within : inner <:+: part) (failing : ∀ entry ∈ inner, ¬entry.note.working) :=
    episode_limits reached (within.trans inside) (fun entry member => same entry (within.subset member)) failing
  constructor
  · exact window_part tracks.reloads
  · exact window_part tracks.eths
  · have apart := tracks.eths_apart.apart
    rw [times_append] at apart
    exact (List.pairwise_append.mp apart).1
  · exact fun inner within failing => (episode_part within failing).1
  · exact fun inner within failing => (episode_part within failing).2
  · intro inner within unhealthy
    exact resetsLimited reached inner (within.trans inside) unhealthy

/-- Every part of a run that lies within one boot keeps all limits, and the whole run that of the resets. -/
theorem limits_within_boot (start resets : Word) {events : List Event}
    (ordered : (events.map Event.time).Pairwise (· ≤ ·)) (short : ∀ event ∈ events, event.time < 4294967296) :
    (∀ part, part <:+: ((Watch.init start resets).run events).log → (∀ entry ∈ part, entry.note ≠ .boot) →
      KeepsLimits part) ∧
        ResetsLimited ((Watch.init start resets).run events).log := by
  have initial := Sound.init start resets
  have reached := initial.run (fun earlier suffix => ⟨_, _, initial, (List.suffix_nil.mp suffix).symm⟩) ordered
    (fun _ _ => Nat.zero_le _) short
  exact ⟨fun part inside same => keepsLimits reached inside same, resetsLimited reached⟩

/-- Captures that fail again and again: six reloads within 65 s, a reset, and one more reload after it. -/
def resetRun : List Event :=
  (List.range 5).flatMap (fun k => [.poll (11000 * k + 10000) 10000 0, .poll (11000 * k + 11000) 0 0]) ++
    [.poll 65000 10000 0, .poll 95000 40000 0, .boot 96000 (-96000), .poll 106000 10000 0]

/-- Before the reset the run keeps the limits, and all of it keeps the one of resets. -/
theorem limits_within_boot_reset :
    KeepsLimits (((Watch.init 0 0).run resetRun).log.drop 2) ∧ ResetsLimited ((Watch.init 0 0).run resetRun).log :=
  have limits := @limits_within_boot 0 0 resetRun (by decide) (by decide)
  ⟨limits.1 _ (List.drop_suffix ..).isInfix (by decide +kernel), limits.2⟩

/-- The reset forgets the reloads before it: there are seven in one hour. -/
theorem reset_forgets :
    ¬∀ (start resets : Word) (events : List Event), (events.map Event.time).Pairwise (· ≤ ·) →
      (∀ event ∈ events, event.time < 4294967296) → KeepsLimits ((Watch.init start resets).run events).log := by
  intro keeps
  have few := (keeps 0 0 resetRun (by decide) (by decide)).reloads_per_hour 0
  have seven : (times .ice40Reload ((Watch.init 0 0).run resetRun).log).countP
      (fun time => 0 ≤ time ∧ time < 0 + recoveryHourMs.toNat) = 7 := by decide +kernel
  rw [seven] at few
  exact absurd few (by decide)

end BenchPod.Recovery
