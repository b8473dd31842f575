import RunMesh.Contracts
import RunMesh.Firing
import RunMesh.Readiness
import RunMesh.Trace

/-!
# Requests in flight

The service as a machine. A request arrives and is authenticated, and then its transactions are
executed one by one, in any order with those of the other requests. Between them the scheduler
executes its operations, and clients write objects to the bucket. Every transaction draws new ids.

The tables stay in order, and every request that is in flight obeys its contract
(`Traffic.Sound`). So the references to artifacts are sound in every state that is reached,
although a URI is checked in one transaction and recorded in another
(`artifact_references_sound`).
-/

namespace RunMesh

open Handler

/-- A request that is being served : the tenant of its principal, and what is left to do. -/
structure Flight where
  tenantId : ℕ
  code : Api Response

/-- The tables and the bucket, and the requests in the order they arrived. -/
structure Traffic where
  backend : Backend
  requests : List Flight

/-- What happens next. -/
inductive TrafficEvent
  /-- A request arrives. -/
  | arrive (req : Request) (d : Draw)
  /-- The next transaction of the request that arrived `n`-th. -/
  | proceed (n : ℕ) (d : Draw)
  /-- A transaction of the scheduler. -/
  | background (env : Env) (op : Op)
  /-- The scheduler moves schedules on. -/
  | reschedule (rows : List Schedule)
  /-- An object is written with a presigned URL, or removed. -/
  | object (key : String) (content : Option (List UInt8))

/-- The operations of the scheduler. -/
def Op.background : Op → Bool
  | promoteRetries | recoverExpired _ | dispatchReady _ => true
  | createRun _ none _ _ _ none => true
  | _ => false

/-- The service. -/
def traffic (cfg : ApiConfig) : Machine Traffic TrafficEvent where
  next s
    | .arrive req d =>
      match req.authenticate cfg d s.backend with
      | (none, backend) => { s with backend := backend }
      | (some p, backend) => ⟨backend, s.requests ++ [⟨p.tenantId, req.endpoint.handler cfg p⟩]⟩
    | .proceed n d =>
      match s.requests[n]? with
      | some ⟨tenantId, .step after rest⟩ =>
        ⟨after d s.backend, s.requests.set n ⟨tenantId, rest d s.backend⟩⟩
      | _ => s
    | .background env op =>
      match op.exec env s.backend.db with
      | .ok r => { s with backend := { s.backend with db := r.2 } }
      | .error _ => s
    | .reschedule rows => { s with backend := { s.backend with schedules := rows } }
    | .object key content =>
      { s with backend := { s.backend with
          objects := Function.update s.backend.objects key content } }
  allowed s
    | .proceed _ d => d.Fresh cfg s.backend
    | .background env op => op.background = true ∧ s.backend.db.Fresh env
    | _ => True

namespace Traffic

variable {cfg : ApiConfig} {s : Traffic} {b : Backend}

/-- No run and no artifact yet, and no request. -/
structure Init (s : Traffic) : Prop where
  db : RunMesh.Init ⟨s.backend.db, 0⟩
  artifacts : s.backend.db.artifacts = []
  keys : (s.backend.apiKeys.map ApiKey.id).Nodup
  requests : s.requests = []

/-- Some history of the service leads to the state. -/
def Reachable (cfg : ApiConfig) (s : Traffic) : Prop :=
  ∃ s₀ es, Init s₀ ∧ (traffic cfg).Valid s₀ es ∧ (traffic cfg).run s₀ es = s

/-! ## The invariant -/

/-- The tables are in order, and every request obeys its contract. -/
structure Sound (cfg : ApiConfig) (s : Traffic) : Prop where
  backend : s.backend.Sound cfg
  requests : ∀ f ∈ s.requests,
    f.code.Obeys (discipline cfg f.tenantId) (fun _ _ => True) s.backend

theorem Init.sound (h : s.Init) : s.Sound cfg where
  backend := by
    obtain ⟨hruns, htasks, hdeps, hattempts, hevents, haccepted⟩ := h.db
    dsimp only at hruns htasks hdeps hattempts hevents haccepted
    refine ⟨⟨⟨⟨?_, ?_⟩, ?_, ?_, ?_, ?_, haccepted, ?_⟩, ?_, ?_, ?_, ?_, ?_⟩,
      ⟨?_, ?_, ?_, ?_, ?_, ?_, ?_⟩, ?_, h.keys⟩ <;>
    simp [hruns, htasks, hdeps, hattempts, hevents, h.artifacts]
  requests f hf := by simp [h.requests] at hf

/-- The next state is sound, and the rows of the last one are still there. -/
def Keeps (cfg : ApiConfig) (s s' : Traffic) : Prop :=
  s'.Sound cfg ∧ s.backend.db.Evolves s'.backend.db

/-- The contracts survive what another does. -/
theorem Sound.keeps (hs : s.Sound cfg) (hb : b.Sound cfg) (hev : s.backend.db.Evolves b.db) :
    Keeps cfg s ⟨b, s.requests⟩ :=
  ⟨⟨hb, fun f hf => (hs.requests f hf).mono hev⟩, hev⟩

theorem Sound.keeps_self (hs : s.Sound cfg) : Keeps cfg s s :=
  ⟨hs, .refl _⟩

theorem Sound.arrive (hs : s.Sound cfg) (req : Request) (d : Draw) :
    Keeps cfg s ((traffic cfg).next s (.arrive req d)) := by
  obtain ⟨hsound, hdb, -, -, -⟩ := req.authenticates hs.backend d
  simp only [traffic]
  split
  · rename_i b hauth
    rw [hauth] at hsound hdb
    exact hs.keeps hsound (hdb ▸ .refl _)
  · rename_i p b hauth
    rw [hauth] at hsound hdb
    obtain ⟨hkept, hev⟩ := hs.keeps hsound (hdb ▸ .refl _)
    refine ⟨⟨hsound, fun f hf => ?_⟩, hev⟩
    rcases List.mem_append.1 hf with hf | hf
    · exact hkept.requests f hf
    · rw [List.mem_singleton.1 hf]
      exact req.endpoint.handler_stays b hsound

theorem Sound.proceed (hs : s.Sound cfg) {n : ℕ} {d : Draw} (hd : d.Fresh cfg s.backend) :
    Keeps cfg s ((traffic cfg).next s (.proceed n d)) := by
  simp only [traffic]
  split
  · rename_i tenantId after rest hn
    have hmem := List.mem_of_getElem? hn
    obtain ⟨hstep, -, hrest⟩ := hs.requests _ hmem s.backend (.refl _) hs.backend d hd
    refine ⟨⟨hstep.inv, fun f hf => ?_⟩, hstep.le⟩
    rcases List.mem_or_eq_of_mem_set hf with hf | rfl
    · exact (hs.requests f hf).mono hstep.le
    · exact hrest
  · exact hs.keeps_self

theorem Sound.background (hs : s.Sound cfg) {env : Env} {op : Op} (hop : op.background = true)
    (henv : s.backend.db.Fresh env) :
    Keeps cfg s ((traffic cfg).next s (.background env op)) := by
  have hchecked : op.Checked s.backend.db := by
    cases op <;> trivial
  simp only [traffic]
  split
  · rename_i r hexec
    exact hs.keeps (hs.backend.exec henv hchecked hexec)
      (exec_evolves hs.backend.linked.toKeyed hexec)
  · exact hs.keeps_self

theorem Sound.next (hs : s.Sound cfg) {e : TrafficEvent} (he : (traffic cfg).allowed s e) :
    Keeps cfg s ((traffic cfg).next s e) := by
  obtain ⟨hlinked, hreferences, hobjects, hkeys⟩ := hs.backend
  cases e with
  | arrive req d => exact hs.arrive req d
  | proceed n d => exact hs.proceed he
  | background env op => exact hs.background he.1 he.2
  | reschedule rows => exact hs.keeps ⟨hlinked, hreferences, hobjects, hkeys⟩ (.refl _)
  | object key content => exact hs.keeps ⟨hlinked, hreferences, hobjects, hkeys⟩ (.refl _)

theorem Sound.run (hs : s.Sound cfg) {es : List TrafficEvent} (hv : (traffic cfg).Valid s es) :
    Keeps cfg s ((traffic cfg).run s es) := by
  refine (traffic cfg).invariant (fun u e hu he => ?_) hs.keeps_self hv
  obtain ⟨hsound, hev⟩ := hu.1.next he
  exact ⟨hsound, hu.2.trans hev⟩

theorem Init.reachable (h : s.Init) : Reachable cfg s :=
  ⟨s, [], h, trivial, rfl⟩

theorem Reachable.next {e : TrafficEvent} (h : Reachable cfg s) (he : (traffic cfg).allowed s e) :
    Reachable cfg ((traffic cfg).next s e) := by
  obtain ⟨s₀, es, h0, hv, rfl⟩ := h
  exact ⟨s₀, es ++ [e], h0, ((traffic cfg).along_snoc _ s₀ es e).2 ⟨hv, he⟩,
    (traffic cfg).run_snoc s₀ es e⟩

theorem Reachable.sound (h : Reachable cfg s) : s.Sound cfg := by
  obtain ⟨s₀, es, h0, hv, rfl⟩ := h
  exact (h0.sound.run hv).1

/-! ## Histories by cue -/

/-- What happens next, before ids are drawn. -/
inductive Cue
  | arrive (req : Request)
  | proceed (n : ℕ)
  | background (op : Op)
  | object (key : String) (content : Option (List UInt8))

/-- A UUID past all those in use. -/
def nextId (s : Traffic) : ℕ :=
  max s.backend.db.nextId ((s.backend.db.artifacts.map Artifact.id).foldr max 0 + 1)

/-- A secret for all draws. -/
def drawnSecret : Secret :=
  ⟨"secret", by decide⟩

/-- The next UUIDs. -/
def draw (s : Traffic) : Draw :=
  ⟨Env.at 0 s.nextId, drawnSecret⟩

/-- The event of a cue. -/
def Cue.event (s : Traffic) : Cue → TrafficEvent
  | arrive req => .arrive req s.draw
  | proceed n => .proceed n s.draw
  | background op => .background s.draw.env op
  | object key content => .object key content

/-- The cue may be followed, there being no API keys. -/
def Cue.ready (s : Traffic) : Cue → Bool
  | proceed _ => s.backend.apiKeys.isEmpty
  | background op => op.background
  | _ => true

theorem fresh_env (s : Traffic) : s.backend.db.Fresh s.draw.env :=
  Db.fresh_at (fun i hi => lt_of_lt_of_le (s.backend.db.lt_nextId i hi) (le_max_left _ _)) 0

theorem fresh_draw (h : s.backend.apiKeys = []) : s.draw.Fresh cfg s.backend where
  rows := s.fresh_env
  artifacts a ha := by
    have hle : ∀ ids : List ℕ, ∀ i ∈ ids, i ≤ ids.foldr max 0 := by
      intro ids
      induction ids with
      | nil => simp
      | cons j ids ih =>
        intro i hi
        rw [List.foldr_cons]
        rcases List.mem_cons.1 hi with rfl | hi
        · omega
        · have := ih i hi
          omega
    have := hle _ _ (List.mem_map_of_mem (f := Artifact.id) ha)
    simp only [draw, Env.at, nextId]
    omega
  keys k hk := by simp [h] at hk

theorem Cue.allowed {c : Cue} (h : c.ready s = true) : (traffic cfg).allowed s (c.event s) := by
  cases c with
  | arrive req => trivial
  | proceed n => exact fresh_draw (List.isEmpty_iff.1 h)
  | background op => exact ⟨h, s.fresh_env⟩
  | object key content => trivial

/-- Follow the cues, each with the next UUIDs. Stop at one that may not be followed. -/
def follow (cfg : ApiConfig) : Traffic → List Cue → List TrafficEvent
  | _, [] => []
  | s, c :: cs =>
    if c.ready s then c.event s :: follow cfg ((traffic cfg).next s (c.event s)) cs else []

theorem valid_follow (cs : List Cue) : ∀ s, (traffic cfg).Valid s (follow cfg s cs) := by
  induction cs with
  | nil => exact fun _ => trivial
  | cons c cs ih =>
    intro s
    rw [follow]
    split_ifs with h
    · exact ⟨c.allowed h, ih _⟩
    · trivial

/-- The state after the cues. -/
def after (cfg : ApiConfig) (s : Traffic) (cs : List Cue) : Traffic :=
  (traffic cfg).run s (follow cfg s cs)

theorem reachable_after (h : s.Init) (cs : List Cue) : Reachable cfg (s.after cfg cs) :=
  ⟨s, follow cfg s cs, h, valid_follow cs s, rfl⟩

end Traffic

/-! ## References to artifacts -/

/-- In every state the service reaches, a run names a `READY` input of its tenant that is attached
to it, two runs name two artifacts and an artifact stays with its run, tasks and attempts name
`READY` outputs and logs of the task and its tenant, and a `READY` artifact has the size that was
declared, within the limit of its kind. -/
theorem artifact_references_sound {cfg : ApiConfig} {s : Traffic} (h : s.Reachable cfg) :
    (∀ r ∈ s.backend.db.workflowRuns, ∀ uri, r.inputArtifactUri = some uri →
      s.backend.db.NamesInput r uri) ∧
    (∀ r ∈ s.backend.db.workflowRuns, ∀ r' ∈ s.backend.db.workflowRuns, ∀ uri,
      r.inputArtifactUri = some uri → r'.inputArtifactUri = some uri → r = r') ∧
    (∀ a ∈ s.backend.db.artifacts, ∀ runId, a.workflowRunId = some runId →
      ∀ es, (traffic cfg).Valid s es → ∃ a' ∈ ((traffic cfg).run s es).backend.db.artifacts,
        a'.id = a.id ∧ a'.workflowRunId = some runId) ∧
    (∀ t ∈ s.backend.db.taskRuns, ∀ uri, t.outputArtifactUri = some uri →
      s.backend.db.NamesTaskArtifact .output t.id uri) ∧
    (∀ a ∈ s.backend.db.taskAttempts, ∀ uri, a.artifactUri = some uri →
      s.backend.db.NamesTaskArtifact .output a.taskRunId uri) ∧
    (∀ a ∈ s.backend.db.taskAttempts, ∀ uri, a.logArtifactUri = some uri →
      s.backend.db.NamesTaskArtifact .log a.taskRunId uri) ∧
    ∀ a ∈ s.backend.db.artifacts, a.status = .ready →
      a.sizeBytes = some a.declaredSize ∧ a.declaredSize ≤ a.kind.limit := by
  have hs := h.sound
  have href := hs.backend.references
  refine ⟨href.input, fun r hr r' hr' uri => ?_, fun a ha runId hrun es hv => ?_, href.output,
    href.attemptOutput, href.attemptLog, fun a ha hready => ?_⟩
  · exact href.input_unique hs.backend.linked.toKeyed hr hr'
  · obtain ⟨a', ha', hev⟩ := (hs.run hv).2.artifacts a ha
    exact ⟨a', ha', hev.id, hev.attached runId hrun⟩
  · exact ⟨href.size a ha hready, href.limit a ha⟩

/-- The API over unary UUIDs, with a bucket. -/
def unaryApi : ApiConfig where
  keys := unaryKeys
  calendar := dailyCalendar
  leaseDuration := 30
  storage := some ⟨"bucket", 60, fun _ => ""⟩
  isObject _ := true
  textLe a b := a ≤ b
  objectError _ := ⟨500, "internal server error"⟩
  databaseText := "database"

/-- The tables with a definition, no keys and an empty bucket. -/
def quietTraffic : Traffic where
  backend := ⟨twoDefinitions.db, [], [], [], fun _ => none⟩
  requests := []

theorem init_quietTraffic : quietTraffic.Init where
  db := init_twoDefinitions
  artifacts := rfl
  keys := List.nodup_nil
  requests := rfl

/-- A developer of the tenant 1. -/
def developer : Principal :=
  ⟨1, none, .admin, .development, []⟩

/-- A developer of the tenant 2. -/
def otherDeveloper : Principal :=
  { developer with tenantId := 2 }

namespace Traffic

/-- A request of the developer. -/
def Cue.ask (e : Endpoint) : Cue :=
  .arrive ⟨.development developer, e⟩

/-- An input is uploaded, and a run is created with it. A worker leases the first task over HTTP
and starts it over gRPC. It uploads an output and a log, and completes the task with them. -/
def servedTask : List Cue :=
  [.ask (.http (.createArtifactUpload ⟨"input", "", 1, "", none⟩)), .proceed 0, .proceed 0,
    .object "a/input/aaa" (some [7]),
    .ask (.http (.completeArtifactUpload "aaa")), .proceed 1, .proceed 1, .proceed 1,
    .ask (.http (.createRun "a" "key" "" "aaa")), .proceed 2,
    .background (.dispatchReady (Scan.ofList [5])),
    .ask (.worker (.lease "aaaaa" "w")), .proceed 3, .proceed 3,
    .ask (.rpc (.start "aaaaa" "w")), .proceed 4, .proceed 4,
    .ask (.worker (.createArtifactUpload ⟨"output", "", 1, "", some "aaaaa"⟩ "w")),
    .proceed 5, .proceed 5, .proceed 5,
    .ask (.rpc (.createArtifactUpload ⟨"log", "", 2, "", none⟩ "aaaaa" "w")),
    .proceed 6, .proceed 6, .proceed 6,
    .object "a/output/aaaaaaaaaa" (some [1]), .object "a/log/aaaaaaaaaaa" (some [1, 2]),
    .ask (.worker (.completeArtifactUpload "aaaaaaaaaa" "aaaaa" "w")),
    .ask (.rpc (.completeArtifactUpload "aaaaaaaaaaa" "aaaaa" "w")),
    .proceed 7, .proceed 8, .proceed 7, .proceed 8, .proceed 7, .proceed 8, .proceed 7, .proceed 8,
    .proceed 7, .proceed 8,
    .ask (.rpc (.complete "aaaaa" "w" none "s3://bucket/a/output/aaaaaaaaaa"
      "s3://bucket/a/log/aaaaaaaaaaa")), .proceed 9, .proceed 9, .proceed 9, .proceed 9]

end Traffic

/-- The run, its first task and the attempt name the artifacts that were uploaded. -/
theorem artifact_references_sound_servedTask :
    (∃ r ∈ (quietTraffic.after unaryApi Traffic.servedTask).backend.db.workflowRuns,
      (quietTraffic.after unaryApi Traffic.servedTask).backend.db.NamesInput r
        "s3://bucket/a/input/aaa") ∧
    (∃ t ∈ (quietTraffic.after unaryApi Traffic.servedTask).backend.db.taskRuns,
      (quietTraffic.after unaryApi Traffic.servedTask).backend.db.NamesTaskArtifact .output t.id
        "s3://bucket/a/output/aaaaaaaaaa") ∧
    ∃ a ∈ (quietTraffic.after unaryApi Traffic.servedTask).backend.db.taskAttempts,
      (quietTraffic.after unaryApi Traffic.servedTask).backend.db.NamesTaskArtifact .log
        a.taskRunId "s3://bucket/a/log/aaaaaaaaaaa" := by
  obtain ⟨hinput, -, -, houtput, -, hlog, -⟩ := artifact_references_sound
    (Traffic.reachable_after init_quietTraffic Traffic.servedTask)
  have hrun : ∃ r ∈ (quietTraffic.after unaryApi Traffic.servedTask).backend.db.workflowRuns,
      r.inputArtifactUri = some "s3://bucket/a/input/aaa" := by
    decide +kernel
  have htask : ∃ t ∈ (quietTraffic.after unaryApi Traffic.servedTask).backend.db.taskRuns,
      t.outputArtifactUri = some "s3://bucket/a/output/aaaaaaaaaa" := by
    decide +kernel
  have hattempt : ∃ a ∈ (quietTraffic.after unaryApi Traffic.servedTask).backend.db.taskAttempts,
      a.logArtifactUri = some "s3://bucket/a/log/aaaaaaaaaaa" := by
    decide +kernel
  obtain ⟨r, hr, hruri⟩ := hrun
  obtain ⟨t, ht, hturi⟩ := htask
  obtain ⟨a, ha, hauri⟩ := hattempt
  exact ⟨⟨r, hr, hinput r hr _ hruri⟩, ⟨t, ht, houtput t ht _ hturi⟩,
    ⟨a, ha, hlog a ha _ hauri⟩⟩

end RunMesh
