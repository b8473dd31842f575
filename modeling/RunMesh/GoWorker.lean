import RunMesh.Delivery
import RunMesh.Readiness
import RunMesh.References

/-!
# The Go worker

`execute` of `cmd/worker-go` and the client of `sdk/go`. A session leases a task, downloads its
input if that is an artifact, starts the task, runs the handler beside a goroutine that sends
heartbeats, and reports. The goroutine and the handler share a context. It is done when the timeout
of the task has passed, when a heartbeat has said that the run was cancelled, and when `execute` has
its answer, and then neither a heartbeat nor a completion is sent.

`fleet` is the machine of any number of sessions, interleaved with the calls of everybody else, with
requests and answers that are lost, and with crashes. Nobody else completes tasks. A session can
give up without a report : at its timeout, when it cannot upload its output, or when an answer is
lost.
Its task is then leased again by another session once the lease has expired, while the first one may
still be at work. So a task may be run many times, and the results are about what comes of it.
-/

namespace RunMesh

open Fallible

namespace GoWorker

/-! ## A session -/

/-- What the handlers make of their input. -/
structure Handlers where
  /-- The input, or the artifact that holds it, is a JSON object. -/
  decodes : String → Option String → Bool
  /-- The type and the text of the error if it is not. -/
  decodeError : String → Option String → String × String
  /-- The output of a handler for a task, from its input or the URI of the artifact that holds it.
  The object under the URI is taken to stay as it is, which is not so for every artifact (see
  `RunMesh.Uploads`). -/
  output : String → ℕ → String → Option String → String
  /-- The length of its encoding. -/
  encodedLength : String → ℕ
  /-- `%q`. -/
  quote : String → String

/-- Where `execute` stands. -/
inductive Stage
  | leasing
  | downloading (t : TaskRun) (uri : Option String)
  | starting (t : TaskRun) (uri : Option String)
  | running (t : TaskRun) (uri : Option String)
  | uploading (output : String)
  | completing (output artifactUri logArtifactUri : String)
  /-- `client.Fail`, and whether the heartbeats are waited for after it. -/
  | failing (f : Failure) (waits : Bool)
  /-- `<-heartbeatsDone`, and whether `execute` is to return `nil`. -/
  | joining (ok : Bool)
  | returned (ok : Bool)

/-- A call of `execute`. -/
structure Session where
  workerId : String
  taskId : ℕ
  stage : Stage
  /-- The goroutine of the heartbeats is running. -/
  beating : Bool
  /-- The context is done. -/
  ctxDone : Bool
  /-- The requests of `execute` so far. -/
  sent : List Op
  /-- For each heartbeat the number of requests made before it. -/
  beats : List ℕ

namespace Session

/-- `execute` is called. -/
def init (workerId : String) (taskId : ℕ) : Session :=
  ⟨workerId, taskId, .leasing, false, false, [], []⟩

/-- The request `execute` makes next. -/
def request (duration : ℤ) (s : Session) : Option Op :=
  match s.stage with
  | .leasing => some (.leaseTask s.taskId s.workerId duration)
  | .starting _ _ => some (.startTask s.taskId s.workerId)
  | .completing output artifactUri logArtifactUri =>
    some (.completeTask s.taskId s.workerId output artifactUri [logArtifactUri])
  | .failing f _ => some (.failTask s.taskId s.workerId f)
  | _ => none

/-- `execute` returns, and the deferred `cancel` is called. -/
def exit (s : Session) (ok : Bool) : Session :=
  { s with stage := .returned ok, ctxDone := true }

/-- `cancel(); <-heartbeatsDone`. -/
def join (s : Session) (ok : Bool) : Session :=
  { s with stage := .joining ok, ctxDone := true }

/-- `execute` goes on with the answer to its request, or with an error if there is none. -/
def answer (s : Session) (reply : Option Reply) : Session :=
  match s.stage with
  | .leasing =>
    match reply with
    | some (.leased t uri) =>
      { s with stage := if uri.getD "" = "" then .starting t uri else .downloading t uri }
    | _ => s.exit false
  | .starting t uri =>
    match reply with
    | some _ => { s with stage := .running t uri, beating := true, ctxDone := false }
    | none => s.exit false
  | .completing _ _ _ => s.join reply.isSome
  | .failing _ waits => if waits then s.join false else s.exit false
  | _ => s

/-- The end of `DownloadArtifact`. -/
def download (s : Session) (ok : Bool) : Session :=
  match s.stage with
  | .downloading t uri => if ok then { s with stage := .starting t uri } else s.exit false
  | _ => s

/-- The handler, `finished` being false if the slow one has seen that the context is done. -/
def run (p : Handlers) (s : Session) (finished : Bool) : Session :=
  match s.stage with
  | .running t uri =>
    if p.decodes t.input uri = false then
      let e := p.decodeError t.input uri
      { s with stage := .failing ⟨false, e.1, e.2, ""⟩ false }
    else if t.handler ∈ ["examples.greet", "examples.upper", "examples.notify"] then
      { s with stage := .uploading (p.output t.handler s.taskId t.input uri) }
    else if t.handler = "examples.slow" then
      if finished then { s with stage := .uploading (p.output t.handler s.taskId t.input uri) }
      else s.exit false
    else if t.handler = "validation.dead" then
      { s with stage := .failing ⟨false, "*errors.errorString",
        "intentional permanent failure for validation", ""⟩ true }
    else
      { s with stage := .failing ⟨true, "*errors.errorString",
        "unsupported handler " ++ p.quote t.handler, ""⟩ true }
  | _ => s

/-- An output with an encoding longer than this is an artifact. -/
def maxOutput : ℕ := 256 * 1024

/-- The uploads of `client.Complete`, which give the artifacts of the output and of the log. Of the
first only a large output has one. -/
def upload (p : Handlers) (s : Session) (uris : Option (String × String)) : Session :=
  match s.stage, uris with
  | .uploading output, some (artifactUri, logArtifactUri) =>
    { s with stage :=
        if maxOutput < p.encodedLength output then .completing "\x7b\x7d" artifactUri logArtifactUri
        else .completing output "" logArtifactUri }
  | .uploading _, none => s.join false
  | _, _ => s

/-- The output among the uploads, with its artifact. -/
def uploaded (p : Handlers) (s : Session) (uris : Option (String × String)) :
    Option (String × String) :=
  match s.stage, uris with
  | .uploading output, some (artifactUri, _) =>
    if maxOutput < p.encodedLength output then some (artifactUri, output) else none
  | _, _ => none

/-- The request is a completion, and its context is done. -/
def cut (s : Session) : Bool :=
  match s.stage with
  | .completing _ _ _ => s.ctxDone
  | _ => false

/-- The answer to a heartbeat. -/
def heard (s : Session) : Option Reply → Session
  | some (.heartbeat _ true) => { s with beating := false, ctxDone := true }
  | _ => s

end Session

/-! ## Any number of sessions -/

/-- The control plane, the sessions, and the outputs uploaded by sessions. -/
structure Fleet where
  plane : State
  sessions : ℕ → Option Session
  objects : List (String × String)

/-- What can happen. -/
inductive FleetStep
  | call (c : Call)
  | receive (id : ℕ) (workerId : String) (taskId : ℕ)
  | send (id : ℕ) (env : Env) (outcome : Outcome)
  | download (id : ℕ) (ok : Bool)
  | run (id : ℕ) (finished : Bool)
  | upload (id : ℕ) (uris : Option (String × String))
  | beat (id : ℕ) (env : Env) (outcome : Outcome)
  | timeout (id : ℕ)
  | join (id : ℕ)
  | crash (id : ℕ)

namespace Fleet

/-- The session goes on, or is gone. -/
def set (s : Fleet) (id : ℕ) (x : Option Session) : Fleet :=
  { s with sessions := Function.update s.sessions id x }

/-- A request of a session, and what the server makes of it. -/
def transact (s : Fleet) (c : Call) (outcome : Outcome) : Fleet :=
  if outcome = .lost then s else { s with plane := controlPlane.next s.plane c }

/-- The answer the session gets to its request. -/
def reply (s : Fleet) (c : Call) (outcome : Outcome) : Option Reply :=
  match outcome, c.exec s.plane.db with
  | .answered, .ok (r, _) => some r
  | _, _ => none

/-- The next request of `execute`. -/
def send (duration : ℤ) (s : Fleet) (id : ℕ) (env : Env) (outcome : Outcome) : Fleet :=
  match s.sessions id with
  | some x =>
    match x.request duration with
    | some op =>
      let c : Call := ⟨env, op⟩
      (s.transact c outcome).set id
        (some ({ x with sent := x.sent ++ [op] }.answer (s.reply c outcome)))
    | none => s
  | none => s

/-- A tick of the goroutine. -/
def beat (duration : ℤ) (s : Fleet) (id : ℕ) (env : Env) (outcome : Outcome) : Fleet :=
  match s.sessions id with
  | some x =>
    if x.beating = false then s
    else if x.ctxDone then s.set id (some { x with beating := false })
    else
      let c : Call := ⟨env, .heartbeatTask x.taskId x.workerId duration⟩
      (s.transact c outcome).set id
        (some ({ x with beats := x.beats ++ [x.sent.length] }.heard (s.reply c outcome)))
  | none => s

/-- The uploads of a session. -/
def upload (p : Handlers) (s : Fleet) (id : ℕ) (uris : Option (String × String)) : Fleet :=
  match s.sessions id with
  | some x =>
    { s with objects := (x.uploaded p uris).toList ++ s.objects }.set id (some (x.upload p uris))
  | none => s

/-- The session takes a step that concerns nobody else. -/
def step (s : Fleet) (id : ℕ) (f : Session → Session) : Fleet :=
  s.set id ((s.sessions id).map f)

/-- The heartbeats have ended. -/
def joined (x : Session) : Session :=
  match x.stage with
  | .joining ok => if x.beating then x else x.exit ok
  | _ => x

end Fleet

/-- The call completes a task. -/
def completes : Op → Bool
  | .completeTask .. => true
  | _ => false

/-- The fleet as a machine. Every lease is for this duration. -/
def fleet (p : Handlers) (duration : ℤ) : Machine Fleet FleetStep where
  next s
    | .call c => { s with plane := controlPlane.next s.plane c }
    | .receive id workerId taskId => s.set id (some (.init workerId taskId))
    | .send id env outcome => s.send duration id env outcome
    | .download id ok => s.step id (·.download ok)
    | .run id finished => s.step id (·.run p finished)
    | .upload id uris => s.upload p id uris
    | .beat id env outcome => s.beat duration id env outcome
    | .timeout id => s.step id fun x => { x with ctxDone := true }
    | .join id => s.step id Fleet.joined
    | .crash id => s.set id none
  allowed s
    | .call c => controlPlane.allowed s.plane c ∧ completes c.op = false
    | .receive id _ _ => s.sessions id = none
    | .send id env outcome => s.plane.clock ≤ env.now ∧ s.plane.db.Fresh env ∧
        ((s.sessions id).any Session.cut = true → outcome = .lost)
    | .beat _ env _ => s.plane.clock ≤ env.now ∧ s.plane.db.Fresh env
    | .run id finished => (s.sessions id).all Session.ctxDone = false → finished = true
    | .upload _ uris => uris.all (fun u => u.1 ≠ "") = true
    | _ => True

/-- No run and no session. -/
structure Fleet.Init (s : Fleet) : Prop where
  plane : RunMesh.Init s.plane
  sessions : ∀ id, s.sessions id = none

variable {p : Handlers} {duration : ℤ} {env : Env} {op : Op} {db db' : Db} {x : Session}

/-! ## The protocol of a session -/

/-- A report of the session. -/
def Session.Reports (x : Session) (op : Op) : Prop :=
  (∃ o a logs, op = .completeTask x.taskId x.workerId o a logs) ∨
    ∃ f, op = .failTask x.taskId x.workerId f

/-- The requests of a session that makes them all. -/
def Session.script (duration : ℤ) (x : Session) (report : Op) : List Op :=
  [.leaseTask x.taskId x.workerId duration, .startTask x.taskId x.workerId, report]

/-- The requests of a session are a lease, a start and one report, or the first of them, and
heartbeats are sent only after the start. -/
def Session.Orderly (duration : ℤ) (x : Session) : Prop :=
  (∃ report, x.Reports report ∧ x.sent <+: x.script duration report) ∧ ∀ n ∈ x.beats, 2 ≤ n

/-- How many requests have been made at a stage, if that is known. -/
def Stage.Made (n : ℕ) : Stage → Prop
  | .leasing => n = 0
  | .downloading _ _ => n = 1
  | .starting _ _ => n = 1
  | .running _ _ => n = 2
  | .uploading _ => n = 2
  | .completing _ _ _ => n = 2
  | .failing _ _ => n = 2
  | .joining _ => True
  | .returned _ => True

/-- What the protocol says of a session under way. -/
structure Session.Follows (duration : ℤ) (x : Session) : Prop where
  orderly : x.Orderly duration
  made : x.stage.Made x.sent.length
  beating : x.beating = true → 2 ≤ x.sent.length

theorem Session.Follows.init (workerId : String) (taskId : ℕ) :
    (Session.init workerId taskId).Follows duration where
  orderly := ⟨⟨.failTask taskId workerId ⟨false, "", "", ""⟩, Or.inr ⟨_, rfl⟩, List.nil_prefix⟩,
    by simp [Session.init]⟩
  made := rfl
  beating h := by cases h

/-- Only the stage and the flags of the session change, and its heartbeats may stop. -/
theorem Session.Follows.of_eq {y : Session} (h : x.Follows duration) (hw : y.workerId = x.workerId)
    (ht : y.taskId = x.taskId) (hsent : y.sent = x.sent) (hbeats : y.beats = x.beats)
    (hbeating : y.beating = true → x.beating = true) (hmade : y.stage.Made x.sent.length) :
    y.Follows duration where
  orderly := by
    obtain ⟨⟨report, hreport, hscript⟩, hn⟩ := h.orderly
    rw [Session.Orderly, hbeats, hsent]
    refine ⟨⟨report, ?_, ?_⟩, hn⟩
    · rwa [Session.Reports, hw, ht, ← Session.Reports]
    · rwa [Session.script, hw, ht, ← Session.script]
  made := hsent ▸ hmade
  beating hb := hsent ▸ h.beating (hbeating hb)

/-- The next request is the next of the script. -/
theorem Session.Follows.ask (h : x.Follows duration) (hop : x.request duration = some op) :
    Session.Orderly duration { x with sent := x.sent ++ [op] } := by
  obtain ⟨⟨report, hreport, hscript⟩, hn⟩ := h.orderly
  have hmade := h.made
  rw [List.prefix_iff_eq_take] at hscript
  -- the report is whatever it is asked to be
  have hlast : x.Reports op → x.sent.length = 2 →
      ∃ report, x.Reports report ∧ x.sent ++ [op] <+: x.script duration report := by
    intro hop htwo
    refine ⟨op, hop, ?_⟩
    rw [htwo] at hscript
    simp only [hscript, script, List.take_succ_cons, List.take_zero, List.cons_append,
      List.nil_append]
    exact List.prefix_rfl
  unfold request at hop
  refine ⟨?_, hn⟩
  cases hst : x.stage <;> rw [hst] at hop hmade <;>
    simp only [Option.some.injEq, reduceCtorEq] at hop
  case leasing =>
    refine ⟨report, hreport, ?_⟩
    have hnil : x.sent = [] := List.length_eq_zero_iff.1 hmade
    simp only [hnil, ← hop, script, List.nil_append]
    exact ⟨_, rfl⟩
  case starting =>
    refine ⟨report, hreport, ?_⟩
    have hone : x.sent.length = 1 := hmade
    rw [hone] at hscript
    simp only [hscript, ← hop, script, List.take_succ_cons, List.take_zero, List.singleton_append]
    exact ⟨_, rfl⟩
  case completing o a l => exact hlast (Or.inl ⟨o, a, [l], hop.symm⟩) hmade
  case failing f waits => exact hlast (Or.inr ⟨f, hop.symm⟩) hmade

/-- A session that has its answer follows the protocol. -/
theorem Session.Follows.answer (h : x.Follows duration) (hop : x.request duration = some op)
    (reply : Option Reply) :
    ({ x with sent := x.sent ++ [op] }.answer reply).Follows duration := by
  have hasked := h.ask hop
  have hlen : (x.sent ++ [op]).length = x.sent.length + 1 := List.length_append
  have hbeating : x.beating = true → 2 ≤ (x.sent ++ [op]).length := fun hb => by
    have := h.beating hb
    omega
  have hmade := h.made
  unfold request at hop
  unfold Session.answer
  cases hst : x.stage <;> rw [hst] at hop hmade <;> simp only [reduceCtorEq] at hop
  case leasing =>
    have hzero : x.sent.length = 0 := hmade
    simp only
    split
    · refine ⟨hasked, ?_, hbeating⟩
      dsimp only
      split_ifs
      · exact hlen.trans (by rw [hzero])
      · exact hlen.trans (by rw [hzero])
    · exact ⟨hasked, trivial, hbeating⟩
  case starting =>
    have hone : x.sent.length = 1 := hmade
    simp only
    split
    · exact ⟨hasked, hlen.trans (by rw [hone]), fun _ => by rw [hlen, hone]⟩
    · exact ⟨hasked, trivial, hbeating⟩
  case completing => exact ⟨hasked, trivial, hbeating⟩
  case failing =>
    simp only
    split_ifs
    · exact ⟨hasked, trivial, hbeating⟩
    · exact ⟨hasked, trivial, hbeating⟩

/-- A heartbeat comes after the start. -/
theorem Session.Follows.heard (h : x.Follows duration) (hb : x.beating = true)
    (reply : Option Reply) :
    ({ x with beats := x.beats ++ [x.sent.length] }.heard reply).Follows duration := by
  have hbeat : Session.Follows duration { x with beats := x.beats ++ [x.sent.length] } := by
    refine ⟨⟨h.orderly.1, fun n hn => ?_⟩, h.made, h.beating⟩
    rcases List.mem_append.1 hn with hn | hn
    · exact h.orderly.2 n hn
    · rw [List.mem_singleton.1 hn]
      exact h.beating hb
  unfold Session.heard
  split
  · exact ⟨hbeat.orderly, hbeat.made, fun hf => by cases hf⟩
  · exact hbeat

theorem Session.Follows.download (h : x.Follows duration) (ok : Bool) :
    (x.download ok).Follows duration := by
  have hmade := h.made
  unfold Session.download
  split
  · rename_i t uri hst
    rw [hst] at hmade
    split_ifs
    · exact h.of_eq rfl rfl rfl rfl id hmade
    · exact h.of_eq rfl rfl rfl rfl id trivial
  · exact h

theorem Session.Follows.run (h : x.Follows duration) (finished : Bool) :
    (x.run p finished).Follows duration := by
  have hmade := h.made
  unfold Session.run
  split
  · rename_i t uri hst
    rw [hst] at hmade
    split_ifs
    all_goals first
      | exact h.of_eq rfl rfl rfl rfl id hmade
      | exact h.of_eq rfl rfl rfl rfl id trivial
  · exact h

theorem Session.Follows.upload (h : x.Follows duration) (uris : Option (String × String)) :
    (x.upload p uris).Follows duration := by
  have hmade := h.made
  unfold Session.upload
  split
  · rename_i output artifactUri logArtifactUri hst
    rw [hst] at hmade
    refine h.of_eq rfl rfl rfl rfl id ?_
    dsimp only
    split_ifs <;> exact hmade
  · exact h.of_eq rfl rfl rfl rfl id trivial
  · exact h

theorem Session.Follows.joined (h : x.Follows duration) : (Fleet.joined x).Follows duration := by
  unfold Fleet.joined
  split
  · split_ifs
    · exact h
    · exact h.of_eq rfl rfl rfl rfl id trivial
  · exact h

/-! ## What a session knows -/

/-- The task has this handler and this input, and its run this input artifact. -/
def Job (db : Db) (taskId : ℕ) (handler input : String) (uri : Option String) : Prop :=
  ∃ t ∈ db.taskRuns, ∃ r ∈ db.workflowRuns, t.id = taskId ∧ t.handler = handler ∧
    t.input = input ∧ r.id = t.workflowRunId ∧ r.inputArtifactUri = uri

/-- The handlers that return an output. -/
def completing : List String :=
  ["examples.greet", "examples.upper", "examples.notify", "examples.slow"]

/-- The output is that of the handler of the task on its input. -/
def Produces (p : Handlers) (db : Db) (taskId : ℕ) (output : String) : Prop :=
  ∃ handler input uri, Job db taskId handler input uri ∧ handler ∈ completing ∧
    p.decodes input uri = true ∧ output = p.output handler taskId input uri

/-- The text and the artifact stand for the output. -/
def Carries (p : Handlers) (objects : List (String × String)) (output text artifactUri : String) :
    Prop :=
  p.encodedLength output ≤ Session.maxOutput ∧ text = output ∧ artifactUri = "" ∨
    Session.maxOutput < p.encodedLength output ∧ text = "\x7b\x7d" ∧ artifactUri ≠ "" ∧
      (artifactUri, output) ∈ objects

/-- The task has the output of its handler on its input, as text or as an artifact. -/
def Right (p : Handlers) (objects : List (String × String)) (db : Db) (t : TaskRun) : Prop :=
  ∃ output text artifactUri, Produces p db t.id output ∧ Carries p objects output text artifactUri ∧
    t.output = some (if text = "" then "\x7b\x7d" else text) ∧
    t.outputArtifactUri = nullIfEmpty artifactUri

/-- What is known of the task at a stage. -/
def Stage.Knows (p : Handlers) (objects : List (String × String)) (db : Db) (taskId : ℕ) :
    Stage → Prop
  | .downloading t uri => Job db taskId t.handler t.input uri
  | .starting t uri => Job db taskId t.handler t.input uri
  | .running t uri => Job db taskId t.handler t.input uri
  | .uploading output => Produces p db taskId output
  | .completing text artifactUri _ =>
    ∃ output, Produces p db taskId output ∧ Carries p objects output text artifactUri
  | .joining ok => ok = true → ∃ t ∈ db.taskRuns, t.id = taskId ∧ t.status = .succeeded
  | .returned ok => ok = true → ∃ t ∈ db.taskRuns, t.id = taskId ∧ t.status = .succeeded
  | _ => True

theorem Carries.mono {objects objects' : List (String × String)} {output text uri : String}
    (h : Carries p objects output text uri) (hsub : objects ⊆ objects') :
    Carries p objects' output text uri :=
  h.imp_right fun hlarge => ⟨hlarge.1, hlarge.2.1, hlarge.2.2.1, hsub hlarge.2.2.2⟩

theorem Stage.Knows.mono {objects objects' : List (String × String)} {st : Stage} {taskId : ℕ}
    (hst : st.Knows p objects db taskId) (hsub : objects ⊆ objects') :
    st.Knows p objects' db taskId := by
  cases st with
  | completing text uri log =>
    obtain ⟨output, hproduces, hcarries⟩ := hst
    exact ⟨output, hproduces, hcarries.mono hsub⟩
  | _ => exact hst

section Exec

variable {reply : Reply} (hk : db.Keyed) (h : op.exec env db = .ok (reply, db'))

include hk h

/-- A call leaves handlers and inputs alone. -/
theorem exec_job {taskId : ℕ} {handler input : String} {uri : Option String}
    (hjob : Job db taskId handler input uri) : Job db' taskId handler input uri := by
  obtain ⟨t, ht, r, hr, hid, hhandler, hinput, hrun, huri⟩ := hjob
  rcases exec_moves hk h with hm | ⟨run, dag, hc⟩
  · obtain ⟨t', ht', hmt⟩ := hm.mem_task ht
    obtain ⟨r', hr', hmr⟩ := hm.mem_run hr
    exact ⟨t', ht', r', hr', hmt.id.trans hid, hmt.handler.trans hhandler, hmt.input.trans hinput,
      by rw [hmr.id, hrun, hmt.workflowRunId], hmr.inputArtifactUri.trans huri⟩
  · refine ⟨t, hc.task_mem ht, r, ?_, hid, hhandler, hinput, hrun, huri⟩
    rw [hc.runs]
    exact List.mem_append_left _ hr

theorem exec_produces {taskId : ℕ} {output : String} (hp : Produces p db taskId output) :
    Produces p db' taskId output := by
  obtain ⟨handler, input, uri, hjob, hrest⟩ := hp
  exact ⟨handler, input, uri, exec_job hk h hjob, hrest⟩

/-- A task that has succeeded is never changed. -/
theorem exec_succeeded {t : TaskRun} (ht : t ∈ db.taskRuns) (hst : t.status = .succeeded) :
    t ∈ db'.taskRuns := by
  rcases exec_moves hk h with hm | ⟨run, dag, hc⟩
  · obtain ⟨t', ht', hmt⟩ := hm.mem_task ht
    rwa [hmt.eq_of_succeeded hst] at ht'
  · exact hc.task_mem ht

/-- What is known stays true. -/
theorem Stage.Knows.exec {objects : List (String × String)} {st : Stage} {taskId : ℕ}
    (hst : st.Knows p objects db taskId) : st.Knows p objects db' taskId := by
  have hdone : (∃ t ∈ db.taskRuns, t.id = taskId ∧ t.status = .succeeded) →
      ∃ t ∈ db'.taskRuns, t.id = taskId ∧ t.status = .succeeded := by
    rintro ⟨t, ht, hid, hsucc⟩
    exact ⟨t, exec_succeeded hk h ht hsucc, hid, hsucc⟩
  cases st with
  | leasing | failing => trivial
  | downloading | starting | running => exact exec_job hk h hst
  | uploading output => exact exec_produces hk h hst
  | completing text uri log =>
    obtain ⟨output, hproduces, hcarries⟩ := hst
    exact ⟨output, exec_produces hk h hproduces, hcarries⟩
  | joining | returned => exact fun hok => hdone (hst hok)

end Exec

/-- What a lease returns. -/
theorem leaseTask_job {taskId : ℕ} {w : String} {t : TaskRun} {uri : Option String}
    (h : leaseTask env taskId w duration db = .ok ((t, uri), db')) :
    Job db taskId t.handler t.input uri := by
  simp only [leaseTask, bind_eq_ok, orError_eq_ok, require_eq_ok] at h
  obtain ⟨t₁, ht, r, hr, -, -, h⟩ := h
  obtain ⟨t₀, hmem, hp, rfl⟩ := Table.head?_returning ht
  cases h
  simp only [decide_eq_true_eq] at hp
  have hrid := List.find?_some hr
  exact ⟨t₀, hmem, r, List.mem_of_find?_eq_some hr, hp.1, rfl, rfl, of_decide_eq_true hrid, rfl⟩

section Complete

variable {taskId : ℕ} {w o a : String} {logs : List String} {t : TaskRun}
  (h : completeTask env taskId w o a logs db = .ok (t, db'))

include h

/-- What a completion returns. -/
theorem completeTask_output : t.output = some (if o = "" then "\x7b\x7d" else o) := by
  simp only [completeTask, bind_eq_ok, orError_eq_ok, require_eq_ok] at h
  obtain ⟨-, -, -, -, t₁, ht, h⟩ := h
  obtain ⟨t₀, -, -, rfl⟩ := Table.head?_returning ht
  cases h
  rfl

/-- What a completion writes. -/
theorem completeTask_row (hk : db.Keyed) {u : TaskRun} (hu : u ∈ db'.taskRuns)
    (hid : u.id = taskId) :
    u.status = .succeeded ∧ u.output = some (if o = "" then "\x7b\x7d" else o) ∧
      u.outputArtifactUri = nullIfEmpty a := by
  have hout := completeTask_output h
  obtain ⟨t₀, r, hheld, rfl, -, -, o', rfl, rfl⟩ := completeTask_ok hk h
  obtain ⟨v, hv, rfl⟩ := List.mem_map.1 hu
  have hvid : v.id = t₀.id := by
    rw [← hid]
    unfold completeRow
    split_ifs <;> rfl
  rw [completeRow, if_pos hvid]
  exact ⟨rfl, hout, rfl⟩

theorem completeTask_mem (hk : db.Keyed) : ∃ u ∈ db'.taskRuns, u.id = taskId := by
  obtain ⟨t₀, r, hheld, rfl, -, -, o', -, rfl⟩ := completeTask_ok hk h
  refine ⟨completeRow env db t₀ o' a t₀, List.mem_map_of_mem hheld.mem, ?_⟩
  rw [completeRow, if_pos rfl]
  rfl

end Complete

/-- The call is no completion, or one that writes the output of the handler. -/
def Truthful (p : Handlers) (objects : List (String × String)) (db : Db) (op : Op) : Prop :=
  ∀ taskId w text artifactUri logs, op = .completeTask taskId w text artifactUri logs →
    ∃ output, Produces p db taskId output ∧ Carries p objects output text artifactUri

/-- Then outputs stay right. -/
theorem exec_right {objects : List (String × String)} (hk : db.Keyed) {reply : Reply}
    (h : op.exec env db = .ok (reply, db')) (hop : Truthful p objects db op)
    (hright : ∀ t ∈ db.taskRuns, t.status = .succeeded → Right p objects db t) :
    ∀ t ∈ db'.taskRuns, t.status = .succeeded → Right p objects db' t := by
  intro t' ht' hst'
  have hkeep : Right p objects db t' → Right p objects db' t' := by
    rintro ⟨output, text, uri, hproduces, hrest⟩
    exact ⟨output, text, uri, exec_produces hk h hproduces, hrest⟩
  rcases exec_moves hk h with hm | ⟨run, dag, hc⟩
  · obtain ⟨t, ht, hmove⟩ := hm.of_mem_task ht'
    rcases hmove.of_succeeded hst' with hst | ⟨w, text, uri, logs, -, -, rfl, -⟩
    · rw [hmove.eq_of_succeeded hst] at hkeep ⊢
      exact hkeep (hright t ht hst)
    · obtain ⟨output, hproduces, hcarries⟩ := hop _ _ _ _ _ rfl
      have hproduces' := exec_produces hk h hproduces
      rw [← hmove.id] at hproduces'
      simp only [Op.exec, map_eq_ok, Prod.mk.injEq] at h
      obtain ⟨⟨t₁, db₁⟩, hok, -, rfl⟩ := h
      obtain ⟨-, hout, huri⟩ := completeTask_row hok hk ht' hmove.id
      exact ⟨output, text, uri, hproduces', hcarries, hout, huri⟩
  · rw [hc.tasks, List.mem_append, List.mem_map] at ht'
    rcases ht' with ht' | ⟨entry, -, rfl⟩
    · exact hkeep (hright t' ht' hst')
    · rcases newTaskRun_status env run dag entry with hs | hs <;> simp [hs] at hst'

/-! ## The invariant -/

/-- What holds in every state of the fleet. -/
structure Fleet.Sound (p : Handlers) (duration : ℤ) (s : Fleet) : Prop where
  reachable : Reachable s.plane
  follows : ∀ id x, s.sessions id = some x → x.Follows duration
  knows : ∀ id x, s.sessions id = some x → x.stage.Knows p s.objects s.plane.db x.taskId
  right : ∀ t ∈ s.plane.db.taskRuns, t.status = .succeeded → Right p s.objects s.plane.db t

/-- The answer of the server, and what it has done. -/
theorem Fleet.reply_eq_some {s : Fleet} {c : Call} {outcome : Outcome} {r : Reply}
    (h : s.reply c outcome = some r) : ∃ db', c.exec s.plane.db = .ok (r, db') ∧
      (s.transact c outcome).plane.db = db' := by
  unfold Fleet.reply at h
  split at h
  · rename_i r' db' hok
    cases h
    refine ⟨db', hok, ?_⟩
    rw [Fleet.transact, if_neg (by decide)]
    exact Call.after_of_ok hok
  · cases h

theorem Fleet.transact_sessions (s : Fleet) (c : Call) (outcome : Outcome) :
    (s.transact c outcome).sessions = s.sessions := by
  unfold Fleet.transact
  split_ifs <;> rfl

theorem Fleet.transact_objects (s : Fleet) (c : Call) (outcome : Outcome) :
    (s.transact c outcome).objects = s.objects := by
  unfold Fleet.transact
  split_ifs <;> rfl

theorem Session.taskId_answer (x : Session) (reply : Option Reply) :
    (x.answer reply).taskId = x.taskId := by
  unfold Session.answer Session.exit Session.join
  split
  · split <;> rfl
  · split <;> rfl
  · rfl
  · split_ifs <;> rfl
  · rfl

theorem Session.heard_eq (x : Session) (reply : Option Reply) :
    (x.heard reply).taskId = x.taskId ∧ (x.heard reply).stage = x.stage := by
  unfold Session.heard
  split <;> exact ⟨rfl, rfl⟩

theorem Fleet.set_sessions (s : Fleet) (id i : ℕ) (x : Option Session) :
    (s.set id x).sessions i = if i = id then x else s.sessions i :=
  Function.update_apply ..

namespace Fleet.Sound

variable {s : Fleet} {id : ℕ} {c : Call} {outcome : Outcome}

theorem keyed (h : s.Sound p duration) : s.plane.db.Keyed :=
  h.reachable.wellFormed.toKeyed

/-- A session takes a step, or ends. -/
theorem put (h : s.Sound p duration) {o : Option Session}
    (ho : ∀ y, o = some y → y.Follows duration ∧
      y.stage.Knows p s.objects s.plane.db y.taskId) : (s.set id o).Sound p duration := by
  refine ⟨h.reachable, fun i x hx => ?_, fun i x hx => ?_, h.right⟩ <;>
    rw [Fleet.set_sessions] at hx <;> split_ifs at hx
  · exact (ho x hx).1
  · exact h.follows i x hx
  · exact (ho x hx).2
  · exact h.knows i x hx

theorem set (h : s.Sound p duration) {y : Session} (hfollows : y.Follows duration)
    (hknows : y.stage.Knows p s.objects s.plane.db y.taskId) :
    (s.set id (some y)).Sound p duration :=
  h.put fun _ hy => Option.some.inj hy ▸ ⟨hfollows, hknows⟩

theorem remove (h : s.Sound p duration) : (s.set id none).Sound p duration :=
  h.put fun _ hy => by cases hy

/-- A step of a session that asks nobody. -/
theorem step (h : s.Sound p duration) {f : Session → Session}
    (hfollows : ∀ x, x.Follows duration → (f x).Follows duration)
    (hknows : ∀ x, s.sessions id = some x → x.stage.Knows p s.objects s.plane.db x.taskId →
      (f x).stage.Knows p s.objects s.plane.db (f x).taskId) :
    (s.step id f).Sound p duration := by
  unfold Fleet.step
  cases hx : s.sessions id with
  | none => exact h.remove
  | some x => exact h.set (hfollows x (h.follows id x hx)) (hknows x hx (h.knows id x hx))

/-- A call of somebody, which writes no wrong output. -/
theorem call (h : s.Sound p duration) (hc : controlPlane.allowed s.plane c)
    (hop : Truthful p s.objects s.plane.db c.op) :
    Fleet.Sound p duration { s with plane := controlPlane.next s.plane c } := by
  refine ⟨h.reachable.next hc, h.follows, fun i x hx => ?_, ?_⟩
  · exact controlPlane_step (P := fun db => x.stage.Knows p s.objects db x.taskId) (h.knows i x hx)
      fun reply db' hok => (h.knows i x hx).exec h.keyed hok
  · exact controlPlane_step
      (P := fun db => ∀ t ∈ db.taskRuns, t.status = .succeeded → Right p s.objects db t) h.right
      fun reply db' hok => exec_right h.keyed hok hop h.right

theorem transact (h : s.Sound p duration) (hc : controlPlane.allowed s.plane c)
    (hop : Truthful p s.objects s.plane.db c.op) :
    (s.transact c outcome).Sound p duration := by
  unfold Fleet.transact
  split_ifs
  · exact h
  · exact h.call hc hop

/-- What a session knows once it has its answer. -/
theorem knows_answer (h : s.Sound p duration) {x : Session} (hx : s.sessions id = some x)
    (hop : x.request duration = some c.op) {sent : List Op} :
    ({ x with sent := sent }.answer (s.reply c outcome)).stage.Knows p s.objects
      (s.transact c outcome).plane.db x.taskId := by
  have hknows := h.knows id x hx
  have hlater : x.stage.Knows p s.objects (s.transact c outcome).plane.db x.taskId := by
    unfold Fleet.transact
    split_ifs
    · exact hknows
    · exact controlPlane_step (P := fun db => x.stage.Knows p s.objects db x.taskId) hknows
        fun reply db' hok => hknows.exec h.keyed hok
  unfold Session.request at hop
  unfold Session.answer
  cases hst : x.stage <;> rw [hst] at hop hlater <;>
    simp only [Option.some.injEq, reduceCtorEq] at hop
  case leasing =>
    simp only
    split
    · rename_i t uri hreply
      obtain ⟨db', hok, hdb⟩ := Fleet.reply_eq_some hreply
      have hjob : Job db' x.taskId t.handler t.input uri := by
        refine exec_job h.keyed hok ?_
        rw [Call.exec, ← hop, Op.exec, map_eq_ok] at hok
        obtain ⟨⟨⟨t₁, uri₁⟩, db₁⟩, hlease, heq⟩ := hok
        cases heq
        exact leaseTask_job hlease
      rw [hdb]
      dsimp only
      split_ifs <;> exact hjob
    · exact fun hok => absurd hok Bool.false_ne_true
  case starting =>
    simp only
    split
    · exact hlater
    · exact fun hok => absurd hok Bool.false_ne_true
  case completing =>
    intro hsome
    obtain ⟨r, hreply⟩ := Option.isSome_iff_exists.1 hsome
    obtain ⟨db', hok, hdb⟩ := Fleet.reply_eq_some hreply
    rw [Call.exec, ← hop, Op.exec, map_eq_ok] at hok
    obtain ⟨⟨t, db₁⟩, hcomplete, heq⟩ := hok
    cases heq
    obtain ⟨u, hu, hid⟩ := completeTask_mem hcomplete h.keyed
    rw [hdb]
    exact ⟨u, hu, hid, (completeTask_row hcomplete h.keyed hu hid).1⟩
  case failing =>
    simp only
    split_ifs
    · exact fun hok => absurd hok Bool.false_ne_true
    · exact fun hok => absurd hok Bool.false_ne_true

/-- A request of a session writes no wrong output. -/
theorem truthful (h : s.Sound p duration) {x : Session} (hx : s.sessions id = some x)
    (hop : x.request duration = some op) : Truthful p s.objects s.plane.db op := by
  have hknows := h.knows id x hx
  intro taskId w text uri logs heq
  unfold Session.request at hop
  cases hst : x.stage <;> rw [hst] at hop hknows <;>
    simp only [Option.some.injEq, reduceCtorEq] at hop <;> subst hop <;> cases heq
  exact hknows

theorem send (h : s.Sound p duration) {env : Env} (hclock : s.plane.clock ≤ env.now)
    (hfresh : s.plane.db.Fresh env) : (s.send duration id env outcome).Sound p duration := by
  unfold Fleet.send
  cases hx : s.sessions id with
  | none => exact h
  | some x =>
    dsimp only
    cases hop : x.request duration with
    | none => exact h
    | some op =>
      have htx : (s.transact ⟨env, op⟩ outcome).Sound p duration :=
        h.transact ⟨hclock, hfresh⟩ (h.truthful hx hop)
      refine htx.set ((h.follows id x hx).answer hop _) ?_
      rw [Fleet.transact_objects, Session.taskId_answer]
      exact h.knows_answer hx (c := ⟨env, op⟩) hop

theorem beat (h : s.Sound p duration) {env : Env} (hclock : s.plane.clock ≤ env.now)
    (hfresh : s.plane.db.Fresh env) : (s.beat duration id env outcome).Sound p duration := by
  unfold Fleet.beat
  cases hx : s.sessions id with
  | none => exact h
  | some x =>
    dsimp only
    split_ifs with hbeating hdone
    · exact h
    · refine h.set ((h.follows id x hx).of_eq rfl rfl rfl rfl (fun hb => by cases hb) ?_)
        (h.knows id x hx)
      exact (h.follows id x hx).made
    · have hb : x.beating = true := Bool.not_eq_false _ ▸ hbeating
      have htx : (s.transact ⟨env, .heartbeatTask x.taskId x.workerId duration⟩ outcome).Sound p
          duration := h.transact ⟨hclock, hfresh⟩ fun _ _ _ _ _ heq => by cases heq
      refine htx.set ((h.follows id x hx).heard hb _) ?_
      rw [(Session.heard_eq _ _).1, (Session.heard_eq _ _).2]
      exact htx.knows id x (by rw [Fleet.transact_sessions, hx])

theorem run (h : s.Sound p duration) (finished : Bool) :
    (s.step id (·.run p finished)).Sound p duration := by
  refine h.step (fun x hx => hx.run finished) fun x _ hknows => ?_
  unfold Session.run
  split
  · rename_i t uri hst
    rw [hst] at hknows
    have hproduces : p.decodes t.input uri = true → t.handler ∈ completing →
        Produces p s.plane.db x.taskId (p.output t.handler x.taskId t.input uri) :=
      fun hdecodes hmem => ⟨_, _, _, hknows, hmem, hdecodes, rfl⟩
    split_ifs with hdecodes hmem hslow hfinished hdead
    · trivial
    · refine hproduces (by simpa using hdecodes) ?_
      exact List.mem_append_left ["examples.slow"] hmem
    · refine hproduces (by simpa using hdecodes) ?_
      rw [hslow]
      exact List.mem_append_right ["examples.greet", "examples.upper", "examples.notify"]
        (List.mem_singleton_self _)
    · exact fun hok => absurd hok Bool.false_ne_true
    · trivial
    · trivial
  · exact hknows

theorem download (h : s.Sound p duration) (ok : Bool) :
    (s.step id (·.download ok)).Sound p duration := by
  refine h.step (fun x hx => hx.download ok) fun x _ hknows => ?_
  unfold Session.download
  split
  · rename_i t uri hst
    rw [hst] at hknows
    split_ifs
    · exact hknows
    · exact fun hok => absurd hok Bool.false_ne_true
  · exact hknows

theorem joined (h : s.Sound p duration) : (s.step id Fleet.joined).Sound p duration := by
  refine h.step (fun x hx => hx.joined) fun x _ hknows => ?_
  unfold Fleet.joined
  split
  · rename_i ok hst
    split_ifs
    · exact hknows
    · rw [hst] at hknows
      exact hknows
  · exact hknows

theorem upload (h : s.Sound p duration) {uris : Option (String × String)}
    (huris : uris.all (fun u => u.1 ≠ "") = true) :
    (s.upload p id uris).Sound p duration := by
  unfold Fleet.upload
  cases hx : s.sessions id with
  | none => exact h
  | some x =>
    have hmore : Fleet.Sound p duration
        { s with objects := (x.uploaded p uris).toList ++ s.objects } := by
      have hsub : s.objects ⊆ (x.uploaded p uris).toList ++ s.objects :=
        List.subset_append_right _ _
      refine ⟨h.reachable, h.follows, fun i y hy => (h.knows i y hy).mono hsub, fun t ht hst => ?_⟩
      obtain ⟨output, text, uri, hproduces, hcarries, hrest⟩ := h.right t ht hst
      exact ⟨output, text, uri, hproduces, hcarries.mono hsub, hrest⟩
    refine hmore.set ((h.follows id x hx).upload uris) ?_
    have hknows := hmore.knows id x hx
    unfold Session.upload
    split
    · rename_i output uri log hst
      rw [hst] at hknows
      dsimp only
      split_ifs with hlarge
      · refine ⟨output, hknows, Or.inr ⟨hlarge, rfl, of_decide_eq_true huris, ?_⟩⟩
        simp [Session.uploaded, hst, hlarge]
      · exact ⟨output, hknows, Or.inl ⟨Nat.le_of_not_lt hlarge, rfl, rfl⟩⟩
    · exact fun hok => absurd hok Bool.false_ne_true
    · exact hknows

/-- Every step keeps the invariant. -/
theorem next (h : s.Sound p duration) {a : FleetStep} (ha : (fleet p duration).allowed s a) :
    ((fleet p duration).next s a).Sound p duration := by
  cases a with
  | call c =>
    obtain ⟨hc, hop⟩ := ha
    refine h.call hc fun _ _ _ _ _ heq => ?_
    rw [heq] at hop
    cases hop
  | receive id w taskId => exact h.set (.init w taskId) trivial
  | send id env outcome => exact h.send ha.1 ha.2.1
  | download id ok => exact h.download ok
  | run id finished => exact h.run finished
  | upload id uris => exact h.upload ha
  | beat id env outcome => exact h.beat ha.1 ha.2
  | timeout id =>
    exact h.step (fun x hx => ⟨hx.orderly, hx.made, hx.beating⟩) fun x _ hknows => hknows
  | join id => exact h.joined
  | crash id => exact h.remove

end Fleet.Sound

theorem Fleet.Init.sound {s : Fleet} (h : s.Init) : s.Sound p duration where
  reachable := h.plane.reachable
  follows id x hx := by simp [h.sessions] at hx
  knows id x hx := by simp [h.sessions] at hx
  right t ht := by simp [h.plane.taskRuns] at ht

/-! ## Whole histories -/

/-- The Go worker. After every history of any number of sessions, a session has made the requests of
its protocol in their order, with one report at most, and heartbeats only after the start. One that
returned `nil` has its task done, and every task that has succeeded has the output of its handler on
its input, however often it was run. -/
theorem go_sessions_deliver (p : Handlers) (duration : ℤ) {s₀ s : Fleet} (h0 : s₀.Init)
    {as : List FleetStep} (hv : (fleet p duration).Valid s₀ as)
    (hs : (fleet p duration).run s₀ as = s) :
    (∀ id x, s.sessions id = some x → x.Orderly duration ∧ (x.stage = .returned true →
      ∃ t ∈ s.plane.db.taskRuns, t.id = x.taskId ∧ t.status = .succeeded)) ∧
    ∀ t ∈ s.plane.db.taskRuns, t.status = .succeeded → Right p s.objects s.plane.db t := by
  subst hs
  have hsound : ((fleet p duration).run s₀ as).Sound p duration :=
    (fleet p duration).invariant (fun _ _ h ha => h.next ha) h0.sound hv
  refine ⟨fun id x hx => ⟨(hsound.follows id x hx).orderly, fun hst => ?_⟩, hsound.right⟩
  have hknows := hsound.knows id x hx
  rw [hst] at hknows
  exact hknows rfl

/-- Handlers that return `"out"`. -/
def plainHandlers : Handlers :=
  ⟨fun _ _ => true, fun _ _ => ("", ""), fun _ _ _ _ => "out", String.length, id⟩

/-- The two definitions, and no session. -/
def quietFleet : Fleet :=
  ⟨twoDefinitions, fun _ => none, []⟩

/-- The first task of the chain is run twice. The first session loses the answer to its completion,
and the second finds the task done. -/
def answerLost : List FleetStep :=
  [.call ⟨Env.at 1 3, .createRun 1 none 1 "k" "" none⟩,
    .call ⟨Env.at 2 7, .dispatchReady (.ofList [4])⟩, .receive 0 "w" 4,
    .send 0 (Env.at 3 8) .answered, .send 0 (Env.at 4 9) .answered, .run 0 true,
    .beat 0 (Env.at 5 9) .answered, .upload 0 (some ("uri", "log")),
    .send 0 (Env.at 6 9) .unanswered, .beat 0 (Env.at 7 20) .answered, .join 0,
    .receive 1 "v" 4, .send 1 (Env.at 8 20) .answered]

theorem go_sessions_deliver_answerLost :
    ∃ t ∈ ((fleet plainHandlers 30).run quietFleet answerLost).plane.db.taskRuns,
      t.status = .succeeded ∧ Right plainHandlers ((fleet plainHandlers 30).run quietFleet
        answerLost).objects ((fleet plainHandlers 30).run quietFleet answerLost).plane.db t := by
  have h0 : quietFleet.Init := ⟨init_twoDefinitions, fun _ => rfl⟩
  have hv : (fleet plainHandlers 30).Valid quietFleet answerLost :=
    ⟨⟨⟨by decide, Db.fresh_at (by decide) 1⟩, rfl⟩, ⟨⟨by decide, Db.fresh_at (by decide) 2⟩, rfl⟩,
      rfl, ⟨by decide, Db.fresh_at (by decide) 3, by decide⟩,
      ⟨by decide, Db.fresh_at (by decide) 4, by decide⟩, fun _ => rfl,
      ⟨by decide, Db.fresh_at (by decide) 5⟩, rfl,
      ⟨by decide, Db.fresh_at (by decide) 6, by decide⟩,
      ⟨by decide, Db.fresh_at (by decide) 7⟩, trivial, rfl,
      ⟨by decide, Db.fresh_at (by decide) 8, by decide⟩, trivial⟩
  obtain ⟨-, hright⟩ := go_sessions_deliver plainHandlers 30 h0 hv rfl
  obtain ⟨t, ht, hst⟩ : ∃ t ∈ ((fleet plainHandlers 30).run quietFleet
      answerLost).plane.db.taskRuns, t.status = .succeeded := by decide +kernel
  exact ⟨t, ht, hst, hright t ht hst⟩

end GoWorker

end RunMesh
