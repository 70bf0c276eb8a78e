import BenchPod.Capture.Moves

/-!
# The gate along a run

The polls, the uploaded bytes and the connections that close keep the gate with whoever uses the
buffers.  The exception is the hold of a finished upload: it is taken back by connection, also when
that connection is uploading again.
-/

namespace BenchPod.Capture

open Command

theorem Use.of_eq_some {use : Option Use} {activity : Activity} {conn : ConnId} :
    Use.of use activity = some conn ↔ use = some ⟨activity, conn⟩ := by
  cases use with
  | none => simp
  | some u =>
    obtain ⟨kind, c⟩ := u
    by_cases same : kind = activity
    · simp [same]
    · simp [same]

namespace Gate

variable {g : Gate} {use : Option Use} {conn : ConnId} {holder : Holder}

theorem Serves.owned_by (serves : g.Serves none) (owner : Option Holder) : ({ g with owner } : Gate).Serves none :=
  ⟨serves.v2cap, serves.lacap, serves.dualcap, serves.chgscan, serves.bulk, serves.upload, by simp,
    serves.waiting, serves.loads, serves.runs⟩

theorem Serves.release (serves : g.Serves none) (holder : Holder) : (g.release holder).Serves none := by
  unfold Gate.release
  split
  · exact serves.owned_by none
  · exact serves

theorem Serves.release_other (serves : g.Serves (some ⟨activity, conn⟩))
    (other : holder ≠ .conn conn) : g.release holder = g := by
  refine if_neg ?_
  rw [serves.owner _ rfl, Option.some.injEq]
  exact other.symm

/-- The captures of a connection dropped. -/
def dropCaptures (g : Gate) (conn : ConnId) : Gate :=
  { g with
    v2cap := g.v2cap.filter (· ≠ conn)
    lacap := g.lacap.filter (· ≠ conn)
    dualcap := g.dualcap.filter (· ≠ conn) }

theorem Serves.dropCaptures {kind : Activity} (serves : g.Serves (some ⟨kind, conn⟩))
    (captures : kind.captures = true) : ({ g.dropCaptures conn with waiting := none } : Gate).Serves none := by
  obtain ⟨v2cap, lacap, dualcap, chgscan, bulk, upload, -, -, loads, runs⟩ := serves
  cases kind with
  | v2cap | lacap | dualcap =>
    refine ⟨?_, ?_, ?_, chgscan, bulk, upload, by simp, by simp, loads, runs⟩
    all_goals simp [Gate.dropCaptures, v2cap, lacap, dualcap]
  | chgscan | bulk | upload => cases captures

/-- A gate with nothing in flight. -/
def cleared (g : Gate) : Gate :=
  { g with v2cap := none, lacap := none, dualcap := none, chgscan := none, bulk := none, waiting := none }

theorem Serves.not_waiting {kind : Activity} (serves : g.Serves (some ⟨kind, conn⟩))
    (other : kind.captures = false) : g.waiting = none := by
  cases waiting : g.waiting with
  | none => rfl
  | some c =>
    obtain ⟨u, member, -, captures⟩ := serves.waiting c waiting
    cases Option.mem_some.mp member
    exact absurd captures (by simp [other])

theorem Serves.cleared_v2cap (serves : g.Serves (some ⟨.v2cap, conn⟩)) :
    ({ g with v2cap := none, waiting := none } : Gate) = g.cleared := by
  ext1 <;> simp [cleared, serves.lacap, serves.dualcap, serves.chgscan, serves.bulk]

theorem Serves.cleared_lacap (serves : g.Serves (some ⟨.lacap, conn⟩)) :
    ({ g with lacap := none, waiting := none } : Gate) = g.cleared := by
  ext1 <;> simp [cleared, serves.v2cap, serves.dualcap, serves.chgscan, serves.bulk]

theorem Serves.cleared_dualcap (serves : g.Serves (some ⟨.dualcap, conn⟩)) :
    ({ g with dualcap := none, waiting := none } : Gate) = g.cleared := by
  ext1 <;> simp [cleared, serves.v2cap, serves.lacap, serves.chgscan, serves.bulk]

theorem Serves.cleared_chgscan (serves : g.Serves (some ⟨.chgscan, conn⟩)) :
    ({ g with chgscan := none } : Gate) = g.cleared := by
  ext1 <;> simp [cleared, serves.v2cap, serves.lacap, serves.dualcap, serves.bulk, serves.not_waiting rfl]

theorem Serves.cleared_upload (serves : g.Serves (some ⟨.upload, conn⟩)) : g = g.cleared := by
  ext1 <;> simp [cleared, serves.v2cap, serves.lacap, serves.dualcap, serves.chgscan, serves.bulk,
    serves.not_waiting rfl]

theorem Serves.cleared_bulk (serves : g.Serves (some ⟨.bulk, conn⟩)) : ({ g with bulk := none } : Gate) = g.cleared := by
  ext1 <;> simp [cleared, serves.v2cap, serves.lacap, serves.dualcap, serves.chgscan, serves.not_waiting rfl]

theorem Serves.no_upload {kind : Activity} (serves : g.Serves (some ⟨kind, conn⟩))
    (notUpload : kind ≠ .upload) : g.upload = none := by
  simp [serves.upload, notUpload]

theorem Serves.owned {kind : Activity} (serves : g.Serves (some ⟨kind, conn⟩)) :
    g.owner = some (.conn conn) := serves.owner _ rfl

theorem Serves.cleared {kind : Activity} (serves : g.Serves (some ⟨kind, conn⟩))
    (notUpload : kind ≠ .upload) : g.cleared.Serves none :=
  ⟨rfl, rfl, rfl, rfl, rfl, serves.no_upload notUpload, by simp, by simp [Gate.cleared], serves.loads,
    serves.runs⟩

theorem Serves.readBack {kind : Activity} (serves : g.Serves (some ⟨kind, conn⟩))
    (notUpload : kind ≠ .upload) :
    ({ g.cleared with bulk := some conn } : Gate).Serves (some ⟨.bulk, conn⟩) :=
  ⟨rfl, rfl, rfl, rfl, rfl, serves.no_upload notUpload, by simpa [Gate.cleared] using serves.owned,
    by simp [Gate.cleared], serves.loads, serves.runs⟩

theorem Serves.scans {kind : Activity} (serves : g.Serves (some ⟨kind, conn⟩))
    (notUpload : kind ≠ .upload) :
    ({ g.cleared with chgscan := some conn } : Gate).Serves (some ⟨.chgscan, conn⟩) :=
  ⟨rfl, rfl, rfl, rfl, rfl, serves.no_upload notUpload, by simpa [Gate.cleared] using serves.owned,
    by simp [Gate.cleared], serves.loads, serves.runs⟩

theorem Serves.uploaded (serves : g.Serves (some ⟨.upload, conn⟩)) (proto : Proto) (other : proto ≠ .load) :
    (Gate.speak { g with upload := none } conn proto).Serves none := by
  have uploads : g.upload = some conn := serves.upload
  obtain ⟨v2cap, lacap, dualcap, chgscan, bulk, -, -, waiting, loads, -⟩ := serves
  refine ⟨v2cap, lacap, dualcap, chgscan, bulk, rfl, by simp, ?_, ?_, by simp [Gate.speak]⟩
  · intro c member
    obtain ⟨u, is_, -, captures⟩ := waiting c member
    cases Option.mem_some.mp is_
    cases captures
  · intro c
    by_cases same : c = conn
    · simp [Gate.speak, same, other]
    · have quiet := (loads c).not.mpr (by simp [uploads, Ne.symm same])
      simp [Gate.speak, same, quiet]

/-- Whatever is a connection's dropped. -/
def drop (g : Gate) (conn : ConnId) : Gate :=
  { g.dropCaptures conn with
    chgscan := g.chgscan.filter (· ≠ conn)
    bulk := g.bulk.filter (· ≠ conn)
    waiting := g.waiting.filter (· ≠ conn) }

theorem Serves.drop_none (serves : g.Serves none) (conn : ConnId) : g.drop conn = g := by
  ext1 <;> simp [drop, Gate.dropCaptures, serves.v2cap, serves.lacap, serves.dualcap, serves.chgscan,
    serves.bulk, serves.waiting_none]

theorem Serves.drop_other {kind : Activity} (serves : g.Serves (some ⟨kind, conn⟩)) {other : ConnId}
    (apart : conn ≠ other) : g.drop other = g := by
  have keeps (activity : Activity) :
      (Use.of (some ⟨kind, conn⟩) activity).filter (· ≠ other) = Use.of (some ⟨kind, conn⟩) activity := by
    by_cases same : kind = activity <;> simp [same, apart]
  have waiting : g.waiting.filter (· ≠ other) = g.waiting := by
    cases waits : g.waiting with
    | none => rfl
    | some c =>
      obtain ⟨u, member, same, -⟩ := serves.waiting c waits
      cases Option.mem_some.mp member
      subst same
      simp [apart]
  ext1
  · rfl
  · rw [serves.v2cap, ← keeps, ← serves.v2cap]
    rfl
  · rw [serves.lacap, ← keeps, ← serves.lacap]
    rfl
  · rw [serves.dualcap, ← keeps, ← serves.dualcap]
    rfl
  · rw [serves.chgscan, ← keeps, ← serves.chgscan]
    rfl
  · rw [serves.bulk, ← keeps, ← serves.bulk]
    rfl
  · rfl
  · exact waiting
  · rfl

theorem Serves.drop_own {kind : Activity} (serves : g.Serves (some ⟨kind, conn⟩)) : g.drop conn = g.cleared := by
  have drops (activity : Activity) : (Use.of (some ⟨kind, conn⟩) activity).filter (· ≠ conn) = none := by
    by_cases same : kind = activity <;> simp [same]
  have waiting : g.waiting.filter (· ≠ conn) = none := by
    cases waits : g.waiting with
    | none => rfl
    | some c =>
      obtain ⟨u, member, same, -⟩ := serves.waiting c waits
      cases Option.mem_some.mp member
      simp [← same]
  have v2cap := drops .v2cap
  have lacap := drops .lacap
  have dualcap := drops .dualcap
  have chgscan := drops .chgscan
  have bulk := drops .bulk
  rw [← serves.v2cap] at v2cap
  rw [← serves.lacap] at lacap
  rw [← serves.dualcap] at dualcap
  rw [← serves.chgscan] at chgscan
  rw [← serves.bulk] at bulk
  ext1 <;> simp only [drop, Gate.dropCaptures, Gate.cleared, v2cap, lacap, dualcap, chgscan, bulk, waiting]

/-- The protocol of a closed connection, and the upload it may have left. -/
def hangUp (g : Gate) (conn : ConnId) : Gate :=
  let g := if connRunsStateMachine conn ∧ (g.proto conn = .load ∨ g.upload = some conn) then
    { g with upload := none } else g
  if connRunsStateMachine conn then g.speak conn .unknown else g

theorem Serves.hangUp_apart (serves : g.Serves use) (apart : g.upload ≠ some conn) : (g.hangUp conn).Serves use := by
  unfold hangUp
  dsimp only
  rw [if_neg (not_and.mpr fun _ => not_or.mpr ⟨(serves.loads conn).not.mpr apart, apart⟩)]
  split
  · exact serves.speak (by simp) apart
  · exact serves

theorem Serves.hangUp_upload (serves : g.Serves (some ⟨.upload, conn⟩)) :
    ((g.release (.conn conn)).hangUp conn).Serves none := by
  have uploads : g.upload = some conn := serves.upload
  have runs := serves.runs conn uploads
  have kept : (g.release (.conn conn)).upload = some conn := by
    rw [release_of_owner serves.owned]
    exact uploads
  unfold hangUp
  dsimp only
  rw [if_pos runs, if_pos ⟨runs, .inr kept⟩, release_of_owner serves.owned]
  have ended := (serves.uploaded .unknown (by simp)).release (.conn conn)
  rw [release_of_owner (by exact serves.owned)] at ended
  exact ended

/-- A connection closed: what it used is dropped, and its next client speaks anew. -/
def close (g : Gate) (conn : ConnId) : Gate := ((g.drop conn).release (.conn conn)).hangUp conn

theorem Serves.close (serves : g.Serves use) (conn : ConnId) : ∃ use', (g.close conn).Serves use' := by
  unfold Gate.close
  cases use with
  | none =>
    refine ⟨none, ?_⟩
    rw [serves.drop_none conn]
    exact (serves.release _).hangUp_apart (by simp [(serves.release (.conn conn)).upload])
  | some u =>
    obtain ⟨kind, owner⟩ := u
    by_cases same : owner = conn
    · subst same
      refine ⟨none, ?_⟩
      rw [serves.drop_own]
      by_cases uploads : kind = .upload
      · subst uploads
        rw [← serves.cleared_upload]
        exact serves.hangUp_upload
      · have released := (serves.cleared uploads).release (.conn owner)
        exact released.hangUp_apart (by simp [released.upload])
    · refine ⟨some ⟨kind, owner⟩, ?_⟩
      have apart : g.upload ≠ some conn := by
        rw [serves.upload]
        by_cases uploads : kind = .upload <;> simp [uploads, same]
      rw [serves.drop_other same, serves.release_other (by simp [Ne.symm same])]
      exact serves.hangUp_apart apart

end Gate

namespace Pod

variable {s : Pod} {use : Option Use} {pass : Pass}

theorem gate_captureTriggerDone (s : Pod) (fabric : Fabric) (fired : Bool) :
    (s.captureTriggerDone fabric fired).gate = { s.gate with waiting := none } := by
  unfold captureTriggerDone
  split
  · rename_i none
    simp [gate, none]
  · exact gate_fpgaSetTriggerOff _ fabric

theorem gate_captureFailed (s : Pod) (pass : Pass) (conn : ConnId) :
    (s.captureFailed pass conn).gate = s.gate.release (.conn conn) := by
  unfold captureFailed fpgaCaptureAbort
  rw [gate_heavyRelease]
  exact congrArg (fun g : Gate => g.release (.conn conn)) (gate_fpgaSetTriggerOff s pass.fabric)

theorem filter_map_ne {α : Type} (o : Option α) (f : α → ConnId) (conn : ConnId) :
    (o.filter (f · ≠ conn)).map f = (o.map f).filter (· ≠ conn) := by
  cases o with
  | none => rfl
  | some a => by_cases same : f a = conn <;> simp [Option.filter, same]

theorem gate_pollTrigger_abort (s : Pod) (pass : Pass) (conn : ConnId) : (let t := s.fpgaCaptureAbort pass
     ({ t with
        trigwait := none
        v2cap := t.v2cap.filter (·.connId ≠ conn)
        lacap := t.lacap.filter (·.connId ≠ conn)
        dualcap := t.dualcap.filter (·.connId ≠ conn) } : Pod).gate) =
      { s.gate.dropCaptures conn with waiting := none } := by
  rw [← gate_fpgaSetTriggerOff s pass.fabric]
  simp only [gate, Gate.dropCaptures, ← filter_map_ne]
  rfl

theorem pollTrigger_serves (serves : s.gate.Serves use) : ∃ use', (s.pollTrigger pass).gate.Serves use' := by
  unfold pollTrigger
  split
  · exact ⟨use, serves⟩
  · rename_i wait waiting
    split
    · exact ⟨use, serves⟩
    · dsimp only
      have frame : ({ s with trigwait := some { wait with
          nextCheck := pass.now + 5000, fired := wait.fired || pass.fired } } : Pod).gate = s.gate := by
        simp [gate, waiting]
      split
      · exact ⟨use, frame ▸ serves⟩
      · -- the capture that waited is dropped, and nothing else was using the buffers
        obtain ⟨u, rfl, same, captures⟩ := serves.waiting wait.connId (by simp [gate, waiting])
        obtain ⟨kind, conn⟩ := u
        refine ⟨none, ?_⟩
        rw [gate_heavyRelease]
        have dropped := gate_pollTrigger_abort s pass wait.connId
        dsimp only at dropped same
        subst same
        rw [dropped]
        exact (serves.dropCaptures captures).release _

theorem pollV2cap_serves (serves : s.gate.Serves use) : ∃ use', (s.pollV2cap pass).gate.Serves use' := by
  unfold pollV2cap
  split
  · exact ⟨use, serves⟩
  · rename_i cap active
    obtain rfl : use = some ⟨.v2cap, cap.connId⟩ := by
      rw [← Use.of_eq_some, ← serves.v2cap]
      simp [gate, active]
    have past (pool : Mem) : (Pod.gate { Pod.captureTriggerDone { s with pool } pass.fabric pass.firedAtEnd with
        v2cap := none }) = s.gate.cleared :=
      (congrArg (fun g : Gate => { g with v2cap := none })
        (gate_captureTriggerDone { s with pool } pass.fabric pass.firedAtEnd)).trans serves.cleared_v2cap
    split
    · exact ⟨_, serves⟩
    · refine ⟨some ⟨.bulk, cap.connId⟩, ?_⟩
      rw [gate_bulkStart, past]
      exact serves.readBack (by simp)
    · refine ⟨none, ?_⟩
      rw [gate_captureFailed, past]
      exact (serves.cleared (by simp)).release _

theorem pollLacap_serves (serves : s.gate.Serves use) : ∃ use', (s.pollLacap pass).gate.Serves use' := by
  unfold pollLacap
  split
  · exact ⟨use, serves⟩
  · rename_i cap active
    obtain rfl : use = some ⟨.lacap, cap.connId⟩ := by
      rw [← Use.of_eq_some, ← serves.lacap]
      simp [gate, active]
    have past : (Pod.gate { Pod.captureTriggerDone s pass.fabric pass.firedAtEnd with
        lacap := none }) = s.gate.cleared :=
      (congrArg (fun g : Gate => { g with lacap := none })
        (gate_captureTriggerDone s pass.fabric pass.firedAtEnd)).trans serves.cleared_lacap
    split
    · exact ⟨_, serves⟩
    · dsimp only
      split
      · refine ⟨none, ?_⟩
        rw [gate_captureFailed, past]
        exact (serves.cleared (by simp)).release _
      · have scans := serves.scans (by simp)
        have reads := serves.readBack (by simp)
        rw [← past] at scans reads
        split
        · exact ⟨_, scans⟩
        · exact ⟨_, reads⟩

theorem pollDualcap_serves (serves : s.gate.Serves use) : ∃ use', (s.pollDualcap pass).gate.Serves use' := by
  unfold pollDualcap
  split
  · exact ⟨use, serves⟩
  · rename_i cap active
    obtain rfl : use = some ⟨.dualcap, cap.connId⟩ := by
      rw [← Use.of_eq_some, ← serves.dualcap]
      simp [gate, active]
    have past : (Pod.gate { Pod.captureTriggerDone s pass.fabric pass.firedAtEnd with
        dualcap := none }) = s.gate.cleared :=
      (congrArg (fun g : Gate => { g with dualcap := none })
        (gate_captureTriggerDone s pass.fabric pass.firedAtEnd)).trans serves.cleared_dualcap
    have given := serves.cleared (by simp)
    split
    · exact ⟨_, serves⟩
    · dsimp only
      split
      · refine ⟨none, ?_⟩
        rw [gate_captureFailed, past]
        exact given.release _
      · have scans := serves.scans (by simp)
        have reads := serves.readBack (by simp)
        rw [← past] at scans reads given
        split
        · refine ⟨none, ?_⟩
          rw [gate_heavyRelease]
          exact given.release _
        · split
          · exact ⟨_, scans⟩
          · exact ⟨_, reads⟩

theorem pollChgscan_serves (serves : s.gate.Serves use) : ∃ use', (s.pollChgscan pass).gate.Serves use' := by
  unfold pollChgscan
  split
  · exact ⟨use, serves⟩
  · rename_i scan active
    obtain rfl : use = some ⟨.chgscan, scan.connId⟩ := by
      rw [← Use.of_eq_some, ← serves.chgscan]
      simp [gate, active]
    have past : (Pod.gate { s with chgscan := none }) = s.gate.cleared := serves.cleared_chgscan
    split
    · rename_i after more
      refine ⟨some ⟨.chgscan, scan.connId⟩, ?_⟩
      have frame : (Pod.gate { s with chgscan := some after }) = s.gate := by
        simp [gate, active, chgscanStep_connId.1 after more]
      rw [frame]
      exact serves
    · refine ⟨none, ?_⟩
      have given := serves.cleared (by simp)
      rw [← past] at given
      rw [gate_heavyRelease]
      exact given.release _
    · rename_i after base pre trunc total ready
      have reads := serves.readBack (by simp)
      rw [← past, ← chgscanStep_connId.2 after base pre trunc total ready] at reads
      exact ⟨_, reads⟩

theorem bulkPump_serves (serves : s.gate.Serves use) : ∃ use', (s.bulkPump pass).gate.Serves use' := by
  unfold bulkPump
  split
  · exact ⟨use, serves⟩
  · rename_i bulk active
    obtain rfl : use = some ⟨.bulk, bulk.connId⟩ := by
      rw [← Use.of_eq_some, ← serves.bulk]
      simp [gate, active]
    split
    · refine ⟨some ⟨.bulk, bulk.connId⟩, ?_⟩
      have frame (sent : Nat) : (Pod.gate { s with bulk := some { bulk with sent } }) = s.gate := by simp [gate, active]
      rw [frame]
      exact serves
    · refine ⟨none, ?_⟩
      have past : (Pod.gate { s with bulk := none }) = s.gate.cleared := serves.cleared_bulk
      rw [gate_heavyRelease, past]
      exact (serves.cleared (by simp)).release _

theorem capturePoll_serves (serves : s.gate.Serves use) : ∃ use', (s.capturePoll pass).gate.Serves use' := by
  obtain ⟨_, serves⟩ := @pollTrigger_serves _ _ pass serves
  obtain ⟨_, serves⟩ := @pollV2cap_serves _ _ pass serves
  obtain ⟨_, serves⟩ := @pollLacap_serves _ _ pass serves
  obtain ⟨_, serves⟩ := @pollChgscan_serves _ _ pass serves
  obtain ⟨_, serves⟩ := @pollDualcap_serves _ _ pass serves
  exact bulkPump_serves serves

theorem gate_abortTriggerOf (s : Pod) (pass : Pass) (conn : ConnId) :
    (s.abortTriggerOf pass conn).gate = { s.gate with waiting := s.gate.waiting.filter (· ≠ conn) } := by
  rw [← gate_fpgaSetTriggerOff s pass.fabric]
  simp only [gate, ← filter_map_ne]
  rfl

theorem waiting_filter_eq {conn : ConnId} (apart : s.trigwait.any (·.connId = conn) = false) :
    s.gate.waiting.filter (· ≠ conn) = s.gate.waiting := by
  cases waits : s.trigwait with
  | none => simp [gate, waits]
  | some wait =>
    have other : wait.connId ≠ conn := by simpa [waits] using apart
    simp [gate, waits, other]

theorem gate_captureConnClosed (s : Pod) (pass : Pass) (conn : ConnId) :
    (s.captureConnClosed pass conn).gate = s.gate.drop conn := by
  have last (t : Pod) : (Pod.gate (if t.trigwait.any (·.connId = conn) then t.abortTriggerOf pass conn
      else t)) = { t.gate with waiting := t.gate.waiting.filter (· ≠ conn) } := by
    split
    · exact gate_abortTriggerOf t pass conn
    · rename_i apart
      rw [waiting_filter_eq (Bool.eq_false_iff.mpr apart)]
  have first (t : Pod) (owned : Bool) : ∃ waiting,
      (Pod.gate (if owned then t.abortTriggerOf pass conn else t)) = { t.gate with waiting } ∧
        waiting.filter (· ≠ conn) = t.gate.waiting.filter (· ≠ conn) := by
    cases owned with
    | true => exact ⟨_, gate_abortTriggerOf t pass conn, by simp [Option.filter_filter]⟩
    | false => exact ⟨_, rfl, rfl⟩
  have sent (t : Pod) : (Pod.gate { t with bulk := t.bulk.filter (·.connId ≠ conn) }) =
      { t.gate with bulk := t.gate.bulk.filter (· ≠ conn) } := by
    simp only [gate, filter_map_ne]
  have captured : (Pod.gate { s with
      v2cap := s.v2cap.filter (·.connId ≠ conn)
      lacap := s.lacap.filter (·.connId ≠ conn)
      dualcap := s.dualcap.filter (·.connId ≠ conn)
      chgscan := s.chgscan.filter (·.connId ≠ conn) }) =
      { s.gate.dropCaptures conn with chgscan := s.gate.chgscan.filter (· ≠ conn) } := by
    simp only [gate, Gate.dropCaptures, filter_map_ne]
  unfold captureConnClosed
  refine (last _).trans ?_
  obtain ⟨waiting, same, rest⟩ := first { s with
    v2cap := s.v2cap.filter (·.connId ≠ conn)
    lacap := s.lacap.filter (·.connId ≠ conn)
    dualcap := s.dualcap.filter (·.connId ≠ conn)
    chgscan := s.chgscan.filter (·.connId ≠ conn) } (s.v2cap.any (·.connId = conn) ||
      s.lacap.any (·.connId = conn) || s.dualcap.any (·.connId = conn))
  rw [sent, same, captured]
  simp only [rest]
  rfl

theorem gate_dacConnClosed (s : Pod) (conn : ConnId) :
    (s.dacConnClosed conn).gate =
      if connRunsStateMachine conn ∧ (s.proto conn = .load ∨ s.loadBin.conn = some conn) then
        { s.gate with upload := none }
      else s.gate := by
  unfold dacConnClosed
  split <;> rfl

theorem connClosed_serves (serves : s.gate.Serves use) (conn : ConnId) :
    ∃ use', (s.connClosed conn pass).gate.Serves use' := by
  have closed : (s.connClosed conn pass).gate = s.gate.close conn := by
    unfold connClosed Gate.close Gate.hangUp
    dsimp only
    rw [← gate_captureConnClosed s pass conn, ← gate_heavyRelease]
    have left := gate_dacConnClosed ((s.captureConnClosed pass conn).heavyRelease (.conn conn)) conn
    by_cases runs : connRunsStateMachine conn = true
    · rw [gate_connProtoSet runs, left, if_pos runs]
      rfl
    · rw [connProtoSet, if_neg runs, left, if_neg runs]
      rfl
  rw [closed]
  exact serves.close conn

theorem loadBinStore_gate (s : Pod) (now : Nat) (data : List Byte) (written : Nat) :
    (s.loadBinStore now data written).gate = s.gate := by
  unfold loadBinStore
  dsimp only
  repeat' split
  all_goals rfl

theorem gate_loadBinDone (s : Pod) {conn : ConnId} (now : Nat) (runs : connRunsStateMachine conn = true) :
    (s.loadBinDone conn now).gate = Gate.speak { s.gate with upload := none } conn .json := by
  have spoken (t : Pod) := gate_connProtoSet (s := t) runs .json
  exact congrArg (fun g : Gate => { g with upload := none }) (spoken _)

theorem loadBinReceive_serves (serves : s.gate.Serves use) (conn : ConnId) (now : Nat) (data : List Byte)
    (written : Nat) (runs : connRunsStateMachine conn = true) (load : s.proto conn = .load) :
    ∃ use', (s.loadBinReceive conn now data written).gate.Serves use' := by
  have uploads : s.gate.upload = some conn := (serves.loads conn).mp load
  obtain rfl : use = some ⟨.upload, conn⟩ := by rw [← Use.of_eq_some, ← serves.upload, uploads]
  have stored := loadBinStore_gate s now data written
  unfold loadBinReceive
  dsimp only
  split
  · exact ⟨_, stored ▸ serves⟩
  · refine ⟨none, ?_⟩
    rw [gate_loadBinDone _ now runs, stored]
    exact serves.uploaded .json (by simp)

theorem pollLoadBin_idle (idle : s.loadBin.conn = none) (now : Nat) : s.pollLoadBin now = s := by
  rw [pollLoadBin, idle]

theorem pollLoadBin_early {conn : ConnId} (uploads : s.loadBin.conn = some conn) {now : Nat}
    (early : now < s.loadBin.deadline) : s.pollLoadBin now = s := by
  rw [pollLoadBin, uploads]
  exact if_pos early

theorem pollLoadBin_stalled {conn : ConnId} (uploads : s.loadBin.conn = some conn)
    (runs : connRunsStateMachine conn = true) (load : s.proto conn = .load) {now : Nat}
    (late : s.loadBin.deadline ≤ now) :
    (s.pollLoadBin now).gate = { (s.gate.speak conn .json).release (.conn conn) with upload := none } := by
  rw [pollLoadBin, uploads]
  dsimp only
  rw [if_neg (by omega), if_pos ⟨runs, load⟩, ← gate_connProtoSet runs, ← gate_heavyRelease]
  rfl

/-- The hold of a finished upload does not run out while its connection is uploading again, unless
something is in flight or the new upload is overdue itself. -/
def timely (s : Pod) : Event → Bool
  | .dacPoll holdNow loadNow =>
    s.heavyInFlight || decide (s.loadBin.deadline ≤ loadNow) ||
      s.loadedHold.all fun hold => decide (holdNow < hold.2) || s.loadBin.conn ≠ some hold.1
  | _ => true

theorem pollLoadedHold_cases (s : Pod) (now : Nat) :
    (s.pollLoadedHold now).gate = s.gate ∨
      ∃ conn until_, s.loadedHold = some (conn, until_) ∧ until_ ≤ now ∧ s.heavyInFlight = false ∧
        s.heavyOwner = some (.conn conn) ∧ (s.pollLoadedHold now).gate = { s.gate with owner := none } := by
  unfold pollLoadedHold
  split
  · exact .inl rfl
  · rename_i conn until_ hold
    split
    · exact .inl rfl
    · rename_i late
      dsimp only
      split
      · rename_i free
        refine .inr ⟨conn, until_, hold, Nat.le_of_not_lt late, free.2, free.1, ?_⟩
        rw [heavyRelease, if_pos free.1]
        split <;> rfl
      · exact .inl rfl

theorem pollLoadedHold_loadBin (s : Pod) (now : Nat) :
    (s.pollLoadedHold now).loadBin = s.loadBin ∧ (s.pollLoadedHold now).proto = s.proto := by
  unfold pollLoadedHold heavyRelease
  dsimp only
  repeat' split
  all_goals exact ⟨rfl, rfl⟩

theorem dacPoll_serves (serves : s.gate.Serves use) {holdNow loadNow : Nat}
    (timely : s.timely (.dacPoll holdNow loadNow) = true) :
    ∃ use', (s.dacPoll holdNow loadNow).gate.Serves use' := by
  obtain ⟨sameUpload, sameProto⟩ := pollLoadedHold_loadBin s holdNow
  have cases_ := pollLoadedHold_cases s holdNow
  unfold dacPoll
  cases uploads : s.loadBin.conn with
  | none =>
    rw [pollLoadBin_idle (by rw [sameUpload, uploads])]
    obtain same | ⟨conn, until_, hold, late, quiet, owner, freed⟩ := cases_
    · exact ⟨use, same ▸ serves⟩
    · have idle : use = none := by
        refine serves.free (freeFor_of_idle ?_ (.inr owner)) fun c _ => ?_
        · simp only [heavyInFlight, Bool.or_eq_false_iff] at quiet
          exact quiet.1.1
        · simp [gate, uploads]
      subst idle
      have released := serves.release (.conn conn)
      rw [Gate.release_of_owner (show s.gate.owner = _ from owner), ← freed] at released
      exact ⟨none, released⟩
  | some conn =>
    obtain rfl : use = some ⟨.upload, conn⟩ := by
      rw [← Use.of_eq_some, ← serves.upload]
      exact uploads
    by_cases late : s.loadBin.deadline ≤ loadNow
    · -- the upload is over in the same poll
      have runs := serves.runs conn uploads
      have load := (serves.loads conn).mpr uploads
      have late' : _ ≤ loadNow := sameUpload ▸ late
      have stalled := pollLoadBin_stalled (by rw [sameUpload, uploads]) runs (by rw [sameProto]; exact load) late'
      have ended (g : Gate) (kept : ∃ owner, g = { s.gate with owner }) :
          ({ (g.speak conn .json).release (.conn conn) with upload := none } : Gate).Serves none := by
        obtain ⟨owner, rfl⟩ := kept
        have past := serves.uploaded .json (by simp)
        unfold Gate.release
        split
        · exact past.owned_by none
        · exact past.owned_by owner
      refine ⟨none, ?_⟩
      rw [stalled]
      obtain same | ⟨c, until_, -, -, -, -, freed⟩ := cases_
      · exact ended _ ⟨s.gate.owner, same⟩
      · exact ended _ ⟨none, freed⟩
    · rw [pollLoadBin_early (by rw [sameUpload, uploads]) (by rw [sameUpload]; omega)]
      obtain same | ⟨c, until_, hold, due, quiet, owner, -⟩ := cases_
      · exact ⟨_, same ▸ serves⟩
      · -- the hold of another connection finds the gate with the uploader
        exfalso
        have mine : c = conn := by
          have owned := serves.owned
          rw [show s.gate.owner = _ from owner] at owned
          simpa using owned
        simp only [Pod.timely, quiet, hold, uploads, mine, late, Option.all_some] at timely
        simp at timely
        omega

theorem speaks_serves (serves : s.gate.Serves use) {conn : ConnId} {proto : Proto} (other : proto ≠ .load)
    {t : Pod} (speaks : s.speaks conn proto = some t) :
    t.gate.Serves use ∧ t.gate.upload ≠ some conn := by
  have apart (quiet : connRunsStateMachine conn = false ∨ s.proto conn ≠ .load) : s.gate.upload ≠ some conn := by
    intro uploads
    obtain runs | quiet := quiet
    · simp [serves.runs conn uploads] at runs
    · exact quiet ((serves.loads conn).mpr uploads)
  unfold Pod.speaks at speaks
  split at speaks
  · rename_i same
    cases speaks
    exact ⟨serves, apart (same.imp_right fun same load => other (same.symm.trans load))⟩
  · split at speaks
    · rename_i unsettled fresh
      cases speaks
      have runs : connRunsStateMachine conn = true := by
        rw [not_or] at unsettled
        exact Bool.not_eq_false _ ▸ unsettled.1
      have apart := apart (.inr (by simp [fresh]))
      rw [gate_connProtoSet runs]
      exact ⟨serves.speak other apart, apart⟩
    · cases speaks

/-- Every event keeps the gate with whoever uses the buffers. -/
theorem step_serves (serves : s.gate.Serves use) {event : Event} (timely : s.timely event = true) :
    ∃ use', (s.step event).gate.Serves use' := by
  unfold step
  cases event with
  | json conn command line answers =>
    dsimp only [handle]
    split
    · exact ⟨use, serves⟩
    · rename_i t speaks
      obtain ⟨serves, apart⟩ := speaks_serves serves (by simp) speaks
      exact serves.commanded apart (jsonCommand_commanded t conn line answers command)
  | scpi conn command bytes =>
    dsimp only [handle]
    split
    · exact ⟨use, serves⟩
    · rename_i t speaks
      obtain ⟨serves, apart⟩ := speaks_serves serves (by simp) speaks
      exact serves.commanded apart (scpiCommand_commanded t conn bytes command)
  | console data =>
    dsimp only [handle, scratchCommand]
    split
    · exact ⟨use, serves⟩
    · rename_i t begun
      have idle := serves.free (heavyBegin_some begun).2 (by simp)
      subst idle
      refine ⟨none, ?_⟩
      have given := serves.owned_by none
      rw [← gate_release_claimed begun] at given
      rw [gate_heavyRelease] at given ⊢
      exact given
  | bytes conn now data written =>
    dsimp only [handle]
    split
    · rename_i load
      exact loadBinReceive_serves serves conn now data written load.1 load.2
    · exact ⟨use, serves⟩
  | rawEnd conn proto =>
    dsimp only [handle]
    split
    · exact ⟨use, serves⟩
    · rename_i other
      obtain ⟨quiet, other⟩ := not_or.mp other
      refine ⟨use, ?_⟩
      by_cases runs : connRunsStateMachine conn = true
      · rw [gate_connProtoSet runs]
        exact serves.speak other fun uploads => quiet ((serves.loads conn).mpr uploads)
      · rw [connProtoSet, if_neg runs]
        exact serves
  | dacPoll holdNow loadNow => exact dacPoll_serves serves timely
  | capturePoll pass => exact capturePoll_serves serves
  | closed conn pass => exact connClosed_serves serves conn
  | reconfigured =>
    exact ⟨use, serves.v2cap, serves.lacap, serves.dualcap, serves.chgscan, serves.bulk, serves.upload,
      serves.owner, by simp [handle, captureOnGatewareReconfigured, gate], serves.loads, serves.runs⟩
  | updates ota esp => exact ⟨use, serves⟩
  | psramWrite start data => exact ⟨use, serves⟩

/-- The connections that a capture, its scan, its read-back or an upload is running for. -/
def users (s : Pod) : List (Option ConnId) :=
  [s.loadBin.conn, s.v2cap.map V2cap.connId, s.lacap.map Lacap.connId, s.dualcap.map Dualcap.connId,
    s.chgscan.map Chgscan.connId, s.bulk.map Bulk.connId]

theorem serves_initial : (Pod.gate {}).Serves none :=
  ⟨rfl, rfl, rfl, rfl, rfl, rfl, by simp, by simp [gate], by simp [gate], by simp [gate]⟩

theorem run_serves {events : List Event}
    (along : worker.Along (fun s event => s.timely event = true) {} events) :
    ∃ use, (worker.run {} events).gate.Serves use := by
  refine along.invariant worker (fun s => ∃ use, s.gate.Serves use) ?_ ⟨none, serves_initial⟩
  rintro s event ⟨use, serves⟩ timely
  exact step_serves serves timely

theorem owner_of_user (serves : s.gate.Serves use) {conn : ConnId} (user : some conn ∈ s.users) :
    s.heavyOwner = some (.conn conn) := by
  have used (activity : Activity) (same : Use.of use activity = some conn) : s.heavyOwner = some (.conn conn) := by
    rw [Use.of_eq_some] at same
    exact serves.owner _ same
  simp only [users, List.mem_cons, List.not_mem_nil, or_false] at user
  obtain same | same | same | same | same | same := user
  · exact used .upload (serves.upload ▸ same.symm)
  · exact used .v2cap (serves.v2cap ▸ same.symm)
  · exact used .lacap (serves.lacap ▸ same.symm)
  · exact used .dualcap (serves.dualcap ▸ same.symm)
  · exact used .chgscan (serves.chgscan ▸ same.symm)
  · exact used .bulk (serves.bulk ▸ same.symm)

end Pod

/-- In every run in which no hold runs out under a new upload of its connection, the gate is held by
whoever uses the buffers, and nobody else can claim it. -/
theorem gate_held (events : List Event)
    (along : worker.Along (fun s event => s.timely event = true) {} events) (conn : ConnId)
    (user : some conn ∈ (worker.run {} events).users) :
    (worker.run {} events).heavyOwner = some (.conn conn) ∧
      ∀ holder, holder ≠ .conn conn → (worker.run {} events).heavyTryClaim holder = none := by
  obtain ⟨use, serves⟩ := Pod.run_serves along
  have owner := Pod.owner_of_user serves user
  refine ⟨owner, ?_⟩
  intro holder other
  refine if_pos ⟨?_, ?_⟩
  · rw [owner]
    simp
  · rw [owner, Ne, Option.some.injEq]
    exact other.symm

/-- An upload, its bytes and the hold it leaves, then a second upload after the hold is over. -/
def uploadsInTurn : List Event :=
  [.json 0 .loadBin (Json.cstr "\x7b\"total\":2\x7d") {}, .bytes 0 1000 [1, 2] 0,
    .dacPoll 120001000 120001000, .json 0 .loadBin (Json.cstr "\x7b\"total\":2\x7d") { now := 120002000 },
    .dacPoll 121000000 121000000]

theorem gate_held_uploads :
    some 0 ∈ (worker.run {} uploadsInTurn).users ∧
      (worker.run {} uploadsInTurn).heavyOwner = some (.conn 0) ∧
      ∀ holder, holder ≠ .conn 0 → (worker.run {} uploadsInTurn).heavyTryClaim holder = none := by
  have user : some 0 ∈ (worker.run {} uploadsInTurn).users := by decide +kernel
  exact ⟨user, gate_held uploadsInTurn (by decide +kernel) 0 user⟩

/-- The second upload starts while the hold of the first still runs. -/
def uploadsUnderHold : List Event :=
  [.json 0 .loadBin (Json.cstr "\x7b\"total\":2\x7d") {}, .bytes 0 1000 [1, 2] 0,
    .json 0 .loadBin (Json.cstr "\x7b\"total\":2\x7d") { now := 100000000 },
    .dacPoll 120001000 120001000, .json 1 .capture (Json.cstr "\x7b\x7d") { now := 120002000 }]

/-- The hold runs out under the second upload, and another connection captures into the pool. -/
theorem gate_lost :
    ¬∀ events conn, some conn ∈ (worker.run {} events).users →
      (worker.run {} events).heavyOwner = some (.conn conn) := by
  intro held
  have user : some 0 ∈ (worker.run {} uploadsUnderHold).users := by decide +kernel
  have taken : (worker.run {} uploadsUnderHold).heavyOwner = some (.conn 1) := by decide +kernel
  have owner := held uploadsUnderHold 0 user
  rw [taken] at owner
  simp at owner

end BenchPod.Capture
