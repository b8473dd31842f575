import RunMesh.Fallible
import Mathlib.Algebra.Order.Ring.Nat
import Mathlib.Data.List.Nodup
import Mathlib.Logic.Function.Basic
import Mathlib.Order.WellFounded

/-!
# Workflow definitions

The `workflow` package : the task and run statuses with the declared transition table
(`canTransition`), the retry delay, the definition of a workflow (`DAG`, `TaskSpec`) and
its validation.

UUIDs are numbers, and instants and durations are integers, in nanoseconds. A Go map is
the list of its entries in the order one `range` visits them, the keys being distinct.
`validateDAG` checks the entries one by one and then looks for a cycle with a
depth-first search (`visit`) that colours a key grey while its dependencies are visited
and black afterwards. A key turns black only when all its dependencies are, so every
black key is accessible along `DAG.DependsOn` (`visit_ok`), and in an accepted definition
every key is (`acc_of_validateDAG`) : following dependencies always ends.
-/

namespace RunMesh

/-- `time.Second`, in nanoseconds. -/
def second : ℤ :=
  1000000000

/-! ## Statuses -/

/-- The enum `task_status`. -/
inductive TaskStatus
  | blocked | ready | dispatching | leased | running | succeeded | failed | retryWait | dead
  | cancelled
  deriving DecidableEq, Repr

/-- The enum `workflow_status`. -/
inductive RunStatus
  | pending | running | succeeded | failed | cancelled
  deriving DecidableEq, Repr

/-- The statuses a failed or cancelled run takes its tasks out of,
`IN ('BLOCKED','READY','DISPATCHING','RETRY_WAIT')`. -/
def TaskStatus.waiting : TaskStatus → Bool
  | .blocked | .ready | .dispatching | .retryWait => true
  | _ => false

/-- A worker holds the task, `IN ('LEASED','RUNNING')`. -/
def TaskStatus.active : TaskStatus → Bool
  | .leased | .running => true
  | _ => false

/-- The `transitions` table. -/
def canTransition : TaskStatus → TaskStatus → Bool
  | .blocked, .ready | .blocked, .cancelled => true
  | .ready, .dispatching | .ready, .cancelled => true
  | .dispatching, .leased | .dispatching, .ready | .dispatching, .cancelled => true
  | .leased, .running | .leased, .retryWait | .leased, .dead | .leased, .cancelled => true
  | .running, .succeeded | .running, .retryWait | .running, .dead | .running, .cancelled => true
  | .retryWait, .ready | .retryWait, .cancelled => true
  | _, _ => false

/-- Two seconds after the first attempt, doubled by each further one, at most an hour.
The powers are exact in a `float64` until they pass the cap. -/
def retryDelay (attempt : ℕ) : ℤ :=
  (min 3600 (2 * 2 ^ (max attempt 1 - 1)) : ℕ) * second

example : retryDelay 1 = 2 * second ∧ retryDelay 20 = 3600 * second := by decide

/-! ## Definitions -/

/-- One task of a definition. -/
structure TaskSpec where
  handler : String
  dependsOn : List String
  maximumAttempts : ℤ
  timeoutSeconds : ℤ
  priority : ℤ
  deriving DecidableEq, Repr

/-- A workflow definition : its tasks by key. -/
structure DAG where
  name : String
  /-- The entries of the map, in the order of one `range` over it. -/
  tasks : List (String × TaskSpec)
  /-- A map has one entry per key. -/
  nodup : (tasks.map Prod.fst).Nodup
  deriving DecidableEq

namespace DAG

/-- The keys of the map. -/
def keys (dag : DAG) : List String :=
  dag.tasks.map Prod.fst

/-- `dag.Tasks[key].DependsOn`, empty for a key the map does not have. -/
def dependsOn (dag : DAG) (key : String) : List String :=
  ((dag.tasks.find? fun entry => entry.1 = key).map fun entry => entry.2.dependsOn).getD []

/-- `dep` is one of the dependencies of `key`. -/
def DependsOn (dag : DAG) (dep key : String) : Prop :=
  dep ∈ dag.dependsOn key

theorem dependsOn_of_mem (dag : DAG) {key : String} {spec : TaskSpec}
    (h : (key, spec) ∈ dag.tasks) : dag.dependsOn key = spec.dependsOn := by
  unfold dependsOn
  cases hf : dag.tasks.find? fun entry => entry.1 = key with
  | none => simpa using List.find?_eq_none.1 hf _ h
  | some entry =>
    have hkey : entry.1 = key := by simpa using List.find?_some hf
    have : entry = (key, spec) :=
      List.inj_on_of_nodup_map dag.nodup (List.mem_of_find?_eq_some hf) h hkey
    simp [this]

end DAG

/-- `WithDefaults` : three attempts, five minutes. -/
def withDefaults (spec : TaskSpec) : TaskSpec :=
  { spec with
    maximumAttempts := if spec.maximumAttempts = 0 then 3 else spec.maximumAttempts
    timeoutSeconds := if spec.timeoutSeconds = 0 then 300 else spec.timeoutSeconds }

/-! ## Validation -/

/-- The errors of `ValidateDAG`, with the keys their texts quote. -/
inductive DagError
  | noTasks
  | tooManyTasks
  | invalidKey (key : String)
  | invalidHandler (key : String)
  | maximumAttempts (key : String)
  | timeoutSeconds (key : String)
  | selfDependency (key : String)
  | missingDependency (key dep : String)
  | repeatedDependency (key dep : String)
  | tooManyEdges
  | cycle (key : String)
  deriving DecidableEq, Repr

/-- `MaxTasks`. -/
def maxTasks : ℕ := 500

/-- `MaxEdges`. -/
def maxEdges : ℕ := 5000

/-- The text of an error, `quote` being the verb `%q`. -/
def DagError.message (quote : String → String) : DagError → String
  | noTasks => "workflow requires at least one task"
  | tooManyTasks => "workflow exceeds 500 tasks"
  | invalidKey key => "invalid task key " ++ quote key
  | invalidHandler key => "task " ++ quote key ++ " has invalid handler"
  | maximumAttempts key =>
    "task " ++ quote key ++ " maximum_attempts must be between 1 and 100"
  | timeoutSeconds key =>
    "task " ++ quote key ++ " timeout_seconds must be between 1 and 86400"
  | selfDependency key => "task " ++ quote key ++ " cannot depend on itself"
  | missingDependency key dep =>
    "task " ++ quote key ++ " depends on missing task " ++ quote dep
  | repeatedDependency key dep => "task " ++ quote key ++ " repeats dependency " ++ quote dep
  | tooManyEdges => "workflow exceeds 5000 dependency edges"
  | cycle key => "workflow contains a cycle involving " ++ quote key

/-- `[A-Za-z]`. -/
def isLetter (c : Char) : Bool :=
  ('a' ≤ c && c ≤ 'z') || ('A' ≤ c && c ≤ 'Z')

/-- `[A-Za-z0-9_.-]`. -/
def isKeyChar (c : Char) : Bool :=
  isLetter c || ('0' ≤ c && c ≤ '9') || c = '_' || c = '.' || c = '-'

/-- `taskKeyPattern.MatchString` : a letter, then at most 127 key characters. -/
def matchesKeyPattern (s : String) : Bool :=
  match s.toList with
  | [] => false
  | c :: cs => isLetter c && cs.length ≤ 127 && cs.all isKeyChar

/-- One iteration over `task.DependsOn` : `edges` counts, `seen` holds the earlier ones. -/
def checkDependency (dag : DAG) (key : String) (st : ℕ × List String) (dep : String) :
    Except DagError (ℕ × List String) :=
  if dep = key then .error (.selfDependency key)
  else if dep ∉ dag.keys then .error (.missingDependency key dep)
  else if dep ∈ st.2 then .error (.repeatedDependency key dep)
  else .ok (st.1 + 1, dep :: st.2)

/-- One iteration over `dag.Tasks`, from the edges counted so far. -/
def checkTask (dag : DAG) (edges : ℕ) (entry : String × TaskSpec) : Except DagError ℕ :=
  if !matchesKeyPattern entry.1 then .error (.invalidKey entry.1)
  else if !matchesKeyPattern entry.2.handler then .error (.invalidHandler entry.1)
  else if entry.2.maximumAttempts < 0 ∨ 100 < entry.2.maximumAttempts then
    .error (.maximumAttempts entry.1)
  else if entry.2.timeoutSeconds < 0 ∨ 86400 < entry.2.timeoutSeconds then
    .error (.timeoutSeconds entry.1)
  else (entry.2.dependsOn.foldlM (checkDependency dag entry.1) (edges, [])).map Prod.fst

/-- The `color` of a key : 0, 1 and 2. -/
inductive Color
  | white | grey | black
  deriving DecidableEq, Repr

/-- The search from `key`. The recursion is on the depth left, and each level below a
grey key is another key, so a depth of one more than the number of tasks is never used up. -/
def visit (dag : DAG) : ℕ → (String → Color) → String → Except DagError (String → Color)
  | 0, _, key => .error (.cycle key)
  | depth + 1, color, key =>
    match color key with
    | .grey => .error (.cycle key)
    | .black => .ok color
    | .white =>
      ((dag.dependsOn key).foldlM (visit dag depth) (Function.update color key .grey)).map
        fun color => Function.update color key .black

/-- `ValidateDAG`. -/
def validateDAG (dag : DAG) : Except DagError Unit :=
  if dag.tasks.length = 0 then .error .noTasks
  else if maxTasks < dag.tasks.length then .error .tooManyTasks
  else
    match dag.tasks.foldlM (checkTask dag) 0 with
    | .error e => .error e
    | .ok edges =>
      if maxEdges < edges then .error .tooManyEdges
      else (dag.keys.foldlM (visit dag (dag.tasks.length + 1)) fun _ => .white).map fun _ => ()

/-! ## Accepted definitions -/

/-- Every black key is accessible. -/
def Explored (dag : DAG) (color : String → Color) : Prop :=
  ∀ key, color key = .black → Acc dag.DependsOn key

/-- A successful search keeps the black keys, blackens its own, and blackens only
accessible keys. The induction is on the depth; below it the loop over the dependencies
carries the same three facts. -/
theorem visit_ok (dag : DAG) : ∀ (depth : ℕ) (color : String → Color) (key : String)
    {color' : String → Color}, Explored dag color → visit dag depth color key = .ok color' →
      Explored dag color' ∧ color' key = .black ∧
        ∀ k, color k = .black → color' k = .black
  | 0, _, _, _, _, h => by cases h
  | depth + 1, color, key, color', hc, h => by
    cases hk : color key with
    | grey => simp [visit, hk] at h
    | black =>
      obtain rfl : color = color' := by simpa [visit, hk] using h
      exact ⟨hc, hk, fun _ h => h⟩
    | white =>
      simp only [visit, hk] at h
      cases hf : (dag.dependsOn key).foldlM (visit dag depth)
          (Function.update color key .grey) with
      | error e => rw [hf] at h; cases h
      | ok color₂ =>
        rw [hf] at h
        cases h
        have hgrey : Explored dag (Function.update color key .grey) := by
          intro k hk'
          by_cases hkk : k = key
          · simp [hkk] at hk'
          · exact hc k (by simpa [hkk] using hk')
        obtain ⟨⟨he, hblack⟩, hdeps⟩ := Fallible.foldlM_ok
          (I := fun c => Explored dag c ∧
            ∀ k, Function.update color key .grey k = .black → c k = .black)
          (Q := fun c dep => c dep = .black)
          (fun c dep c' _ hI hv =>
            have hd := visit_ok dag depth c dep hI.1 hv
            ⟨⟨hd.1, fun k hk' => hd.2.2 k (hI.2 k hk')⟩, hd.2.1⟩)
          (fun c dep b c' hI hv hb => (visit_ok dag depth c dep hI.1 hv).2.2 b hb)
          ⟨hgrey, fun _ h => h⟩ hf
        refine ⟨fun k hk' => ?_, by simp, fun k hk' => ?_⟩
        · by_cases hkk : k = key
          · subst hkk
            exact Acc.intro k fun dep hdep => he dep (hdeps dep hdep)
          · exact he k (by simpa [hkk] using hk')
        · by_cases hkk : k = key
          · simp [hkk]
          · simpa [hkk] using hblack k (by simpa [hkk] using hk')

/-- What an accepted definition has passed. -/
structure Accepted (dag : DAG) : Prop where
  nonempty : dag.tasks ≠ []
  checked : ∃ edges, dag.tasks.foldlM (checkTask dag) 0 = .ok edges ∧ edges ≤ maxEdges
  searched : ∃ color, dag.keys.foldlM (visit dag (dag.tasks.length + 1)) (fun _ => .white) =
    .ok color

theorem accepted_of_validateDAG {dag : DAG} (h : validateDAG dag = .ok ()) : Accepted dag := by
  unfold validateDAG at h
  split_ifs at h with h0 hmax
  cases hc : dag.tasks.foldlM (checkTask dag) 0 with
  | error e => rw [hc] at h; cases h
  | ok edges =>
    simp only [hc] at h
    split_ifs at h with he
    cases hv : dag.keys.foldlM (visit dag (dag.tasks.length + 1)) fun _ => .white with
    | error e => rw [hv] at h; cases h
    | ok color => exact ⟨fun hnil => h0 (by simp [hnil]), ⟨edges, hc, by omega⟩, ⟨color, hv⟩⟩

/-- A search that succeeds shows that following dependencies ends. -/
theorem acc_of_search {dag : DAG} {depth : ℕ} {keys : List String} {color : String → Color}
    (h : keys.foldlM (visit dag depth) (fun _ => .white) = .ok color) {key : String}
    (hkey : key ∈ keys) : Acc dag.DependsOn key := by
  obtain ⟨he, hblack⟩ := Fallible.foldlM_ok (I := Explored dag) (Q := fun c k => c k = .black)
    (fun c k c' _ hI hk => ⟨(visit_ok dag _ c k hI hk).1, (visit_ok dag _ c k hI hk).2.1⟩)
    (fun c k b c' hI hk hb => (visit_ok dag _ c k hI hk).2.2 b hb)
    (fun k hk => by cases hk) h
  exact he key (hblack key hkey)

/-- In an accepted definition, following dependencies ends. -/
theorem acc_of_validateDAG {dag : DAG} (h : validateDAG dag = .ok ()) {key : String}
    (hkey : key ∈ dag.keys) : Acc dag.DependsOn key := by
  obtain ⟨color, hv⟩ := (accepted_of_validateDAG h).searched
  exact acc_of_search hv hkey

theorem checkDependency_ok {dag : DAG} {key dep : String} {st st' : ℕ × List String}
    (h : checkDependency dag key st dep = .ok st') :
    dep ≠ key ∧ dep ∈ dag.keys ∧ dep ∉ st.2 ∧ st' = (st.1 + 1, dep :: st.2) := by
  unfold checkDependency at h
  split_ifs at h with h1 h2 h3
  cases h
  exact ⟨h1, by simpa using h2, h3, rfl⟩

/-- The dependencies of a checked entry are other keys of the map. -/
theorem checkTask_ok {dag : DAG} {edges edges' : ℕ} {entry : String × TaskSpec}
    (h : checkTask dag edges entry = .ok edges') :
    ∀ dep ∈ entry.2.dependsOn, dep ≠ entry.1 ∧ dep ∈ dag.keys := by
  unfold checkTask at h
  split_ifs at h
  cases hf : entry.2.dependsOn.foldlM (checkDependency dag entry.1) (edges, []) with
  | error e => rw [hf] at h; cases h
  | ok st =>
    refine (Fallible.foldlM_ok (I := fun _ => True)
      (Q := fun _ dep => dep ≠ entry.1 ∧ dep ∈ dag.keys) ?_ ?_ trivial hf).2
    · intro s dep s' _ _ hd
      exact ⟨trivial, (checkDependency_ok hd).1, (checkDependency_ok hd).2.1⟩
    · exact fun _ _ _ _ _ _ hq => hq

/-- In an accepted definition a dependency is another key of the map. -/
theorem dependency_mem_keys {dag : DAG} (h : validateDAG dag = .ok ()) {key dep : String}
    {spec : TaskSpec} (hmem : (key, spec) ∈ dag.tasks) (hdep : dep ∈ spec.dependsOn) :
    dep ≠ key ∧ dep ∈ dag.keys := by
  obtain ⟨edges, hc, -⟩ := (accepted_of_validateDAG h).checked
  exact (Fallible.foldlM_ok (I := fun _ => True)
    (Q := fun _ (entry : String × TaskSpec) =>
      ∀ dep ∈ entry.2.dependsOn, dep ≠ entry.1 ∧ dep ∈ dag.keys)
    (fun s entry s' _ _ ht => ⟨trivial, checkTask_ok ht⟩)
    (fun _ _ _ _ _ _ hq => hq) trivial hc).2 (key, spec) hmem dep hdep

end RunMesh
