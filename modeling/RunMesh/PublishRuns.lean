import RunMesh.Drain

/-!
# The publishing loop as a run

`RunMesh.Drain` has `publishBatch` as a function of the table, and `outbox` is the machine in which
publishers interleave. A call of `publishClaimedBatch` is a run of the machine in which only its
publisher moves, however its requests end (`publishClaimedBatch_run`). The calls of `publishBatch`
follow each other, so the loop is a run too (`publishBatch_run`), and what is known of every run
is known of it (`publishBatch_taken`).
-/

namespace RunMesh

variable {svc : Service} {log : List Message} {token : ℕ} {t : ℤ} {o : Outbox} {s : Relay}

/-- `s` is the table of the outbox and what its broker took after `log`. -/
structure Relay.Shows (log : List Message) (s : Relay) (o : Outbox) : Prop where
  events : o.events = s.events
  log : o.log = log ++ s.published.map OutboxEvent.message

/-- The publisher can end its call in `s`, no later than `t`, while the others stay where they
are. -/
def Reaches (svc : Service) (log : List Message) (token : ℕ) (t : ℤ) (o : Outbox) (s : Relay) :
    Prop :=
  ∃ as, (outbox svc).Valid o as ∧ s.Shows log ((outbox svc).run o as) ∧
    ((outbox svc).run o as).clock ≤ t ∧
    ((outbox svc).run o as).batches = Function.update o.batches token none

/-! ## Steps of a call -/

namespace Reaches

theorem done (hs : s.Shows log o) (hclock : o.clock ≤ t) (hb : o.batches token = none) :
    Reaches svc log token t o s :=
  ⟨[], trivial, hs, hclock, by rw [Machine.run_nil, ← hb, Function.update_eq_self]⟩

/-- A step that moves the publisher. -/
theorem step {a : OutboxStep} {o' : Outbox} {b : Option Batch}
    (hnext : (outbox svc).next o a = o'.setBatch token b) (ha : (outbox svc).allowed o a)
    (hbatches : o'.batches = o.batches)
    (h : Reaches svc log token t (o'.setBatch token b) s) : Reaches svc log token t o s := by
  obtain ⟨as, hv, hs, hclock, hb⟩ := h
  rw [← hnext] at hv hs hclock hb
  refine ⟨a :: as, ⟨ha, hv⟩, hs, hclock, ?_⟩
  rw [Machine.run_cons, hb, hnext, Outbox.setBatch, Function.update_idem, hbatches]

theorem advance {now : ℤ} (hle : o.clock ≤ now)
    (h : Reaches svc log token t { o with clock := now } s) : Reaches svc log token t o s := by
  obtain ⟨as, hv, hs, hclock, hb⟩ := h
  exact ⟨.advance now :: as, ⟨hle, hv⟩, hs, hclock, hb⟩

/-- After an error the call releases its claims and returns. -/
theorem release (input : PublishInput) {rest : List OutboxEvent} {since : ℤ}
    (hb : o.batches input.token = some ⟨rest, .releasing, since⟩) (hs : s.Shows log o)
    (hclock : o.clock ≤ t) : Reaches svc log input.token t o (s.release input) := by
  by_cases hlost : input.release = .lost
  · have hnext : (outbox svc).next o (.release input.token input.release) =
        o.setBatch input.token none := by
      simp only [outbox, Outbox.release, hb, hlost, if_true]
    refine step hnext trivial rfl (done ?_ hclock (Function.update_self ..))
    rw [Relay.release, if_pos hlost]
    exact ⟨hs.events, hs.log⟩
  · have hnext : (outbox svc).next o (.release input.token input.release) =
        { o with events := Table.update (Outbox.releases input.token) .unclaim o.events }.setBatch
          input.token none := by
      simp only [outbox, Outbox.release, hb, hlost, if_false]
    refine step hnext trivial rfl (done ?_ hclock (Function.update_self ..))
    rw [Relay.release, if_neg hlost]
    exact ⟨congrArg (Table.update _ _) hs.events, hs.log⟩

/-- The call of `Publish`, up to its return. -/
theorem publish {rest : List OutboxEvent} {since : ℤ} {e : OutboxEvent}
    (hb : o.batches token = some ⟨rest, .ready, since⟩)
    (hfind : rest.find? (fun e' => e'.id = e.id) = some e)
    (h : Reaches svc log token t ({ o with sent := o.sent ++ [e] }.setBatch token
      (some ⟨rest.erase e, .publishing e false, o.clock⟩)) s) : Reaches svc log token t o s := by
  have hnext : (outbox svc).next o (.publish token e.id) =
      { o with sent := o.sent ++ [e] }.setBatch token
        (some ⟨rest.erase e, .publishing e false, o.clock⟩) := by
    simp only [outbox, Outbox.publish, hb, hfind]
  exact step hnext trivial rfl h

/-- The broker takes the event. -/
theorem deliver {rest : List OutboxEvent} {since : ℤ} {e : OutboxEvent} {d : Bool}
    (hb : o.batches token = some ⟨rest, .publishing e d, since⟩)
    (h : Reaches svc log token t ({ o with log := o.log ++ [e.message] }.setBatch token
      (some ⟨rest, .publishing e true, since⟩)) s) : Reaches svc log token t o s := by
  have hnext : (outbox svc).next o (.deliver token) =
      { o with log := o.log ++ [e.message] }.setBatch token
        (some ⟨rest, .publishing e true, since⟩) := by
    simp only [outbox, Outbox.deliver, hb]
  exact step hnext trivial rfl h

/-- `Publish` returns an error, and the call returns. -/
theorem publishErr (input : PublishInput) {rest : List OutboxEvent} {since : ℤ} {e : OutboxEvent}
    {d : Bool} (hb : o.batches input.token = some ⟨rest, .publishing e d, since⟩)
    (hs : s.Shows log o) (hclock : o.clock ≤ t) :
    Reaches svc log input.token t o (s.release input) := by
  have hnext : (outbox svc).next o (.publishErr input.token) =
      o.setBatch input.token (some ⟨rest, .releasing, o.clock⟩) := by
    simp only [outbox, Outbox.publishErr, hb]
  exact step hnext trivial rfl
    (release input (Function.update_self ..) ⟨hs.events, hs.log⟩ hclock)

/-- `Publish` returns nil, and time passes until the acknowledgement. -/
theorem publishOk {rest : List OutboxEvent} {since now : ℤ} {e : OutboxEvent}
    (hb : o.batches token = some ⟨rest, .publishing e true, since⟩) (hle : o.clock ≤ now)
    (h : Reaches svc log token t ({ o with returned := o.returned ++ [e], clock := now }.setBatch
      token (some ⟨rest, .acknowledging e, o.clock⟩)) s) : Reaches svc log token t o s := by
  have hnext : (outbox svc).next o (.publishOk token) =
      { o with returned := o.returned ++ [e] }.setBatch token
        (some ⟨rest, .acknowledging e, o.clock⟩) := by
    simp only [outbox, Outbox.publishOk, hb]
  exact step hnext trivial rfl (advance hle h)

/-- The acknowledgement finds the claim, and the loop goes on. -/
theorem acknowledge {rest : List OutboxEvent} {since : ℤ} {e : OutboxEvent}
    (hb : o.batches token = some ⟨rest, .acknowledging e, since⟩)
    (hone : o.events.countP (Outbox.acknowledges token e) = 1)
    (h : Reaches svc log token t ({ o with
      events := Table.update (Outbox.acknowledges token e) (.acknowledge o.clock)
        o.events }.setBatch token (if rest = [] then none else some ⟨rest, .ready, since⟩)) s) :
    Reaches svc log token t o s := by
  have hnext : (outbox svc).next o (.acknowledge token .answered) =
      { o with
        events := Table.update (Outbox.acknowledges token e) (.acknowledge o.clock)
          o.events }.setBatch token (if rest = [] then none else some ⟨rest, .ready, since⟩) := by
    simp only [outbox, Outbox.acknowledge, hb, hone, reduceCtorEq, if_false, and_self, if_true]
  exact step hnext trivial rfl h

/-- The acknowledgement fails or finds no claim, and the call returns. -/
theorem acknowledgeErr (input : PublishInput) (outcome : Outcome) {rest : List OutboxEvent}
    {since : ℤ} {e : OutboxEvent} {s' : Relay}
    (hb : o.batches input.token = some ⟨rest, .acknowledging e, since⟩) (hs : s.Shows log o)
    (hfail : ¬(outcome = .answered ∧
      o.events.countP (Outbox.acknowledges input.token e) = 1))
    (hs' : s' = if outcome = .lost then s else s.acknowledge input.token o.clock e)
    (hclock : o.clock ≤ t) : Reaches svc log input.token t o (s'.release input) := by
  set o' : Outbox := if outcome = .lost then o else { o with
    events := Table.update (Outbox.acknowledges input.token e) (.acknowledge o.clock) o.events }
    with ho'
  have hnext : (outbox svc).next o (.acknowledge input.token outcome) =
      o'.setBatch input.token (some ⟨rest, .releasing, since⟩) := by
    simp only [outbox, Outbox.acknowledge, hb, if_neg hfail, ← ho']
  have hsame : o'.batches = o.batches ∧ o'.clock = o.clock ∧ s'.Shows log o' := by
    rw [ho', hs']
    split_ifs
    · exact ⟨rfl, rfl, hs⟩
    · exact ⟨rfl, rfl, congrArg (Table.update _ _) hs.events, hs.log⟩
  refine step hnext trivial hsame.1 (release input (Function.update_self ..) ?_ ?_)
  · exact ⟨hsame.2.2.events, hsame.2.2.log⟩
  · exact hsame.2.1.trans_le hclock

/-- The claim, and the loop it starts. -/
theorem claim {input : PublishInput} {s' : Relay} (hacc : svc.publishTimeout < svc.claimTTL)
    (hs : s.Shows log o) (hclock : o.clock ≤ input.now) (hb : o.batches input.token = none)
    (hfresh : ∀ e ∈ s.events, e.claimToken ≠ some input.token)
    (h : Reaches svc log input.token t ({ o with
      clock := input.now
      events := (s.claim svc input).1.events }.setBatch input.token
        (if (s.claim svc input).2 = [] then none
        else some ⟨(s.claim svc input).2, .ready, input.now⟩)) s') :
    Reaches svc log input.token t o s' := by
  refine advance hclock ?_
  by_cases hids : (candidates svc input.now input.locked s.events).map OutboxEvent.id = []
  · have hnone : s.claim svc input = (s, []) := by
      simp [Relay.claim, hids, Table.update, Table.returning]
    rw [hnone, if_pos rfl, ← hs.events, Outbox.setBatch, ← hb, Function.update_eq_self] at h
    exact h
  · have hrows : (s.claim svc input).2 ≠ [] := by
      obtain ⟨c, hc⟩ := List.exists_mem_of_ne_nil _ (mt (congrArg (List.map _)) hids)
      have hclaimed : c ∈ s.events.filter fun o =>
          o.id ∈ (candidates svc input.now input.locked s.events).map OutboxEvent.id :=
        List.mem_filter.2
          ⟨(claimable_of_mem_candidates hc).1, decide_eq_true (List.mem_map_of_mem hc)⟩
      exact List.ne_nil_of_mem (List.mem_map_of_mem hclaimed)
    rw [if_neg hrows] at h
    have hnext : (outbox svc).next { o with clock := input.now }
          (.claim input.token input.locked) =
        { o with clock := input.now, events := (s.claim svc input).1.events }.setBatch input.token
          (some ⟨(s.claim svc input).2, .ready, input.now⟩) := by
      simp only [outbox, Outbox.claim, hs.events, hids, not_le.2 hacc, or_self, if_false]
      rfl
    exact step hnext ⟨hb, hs.events ▸ hfresh⟩ rfl h

end Reaches

/-! ## Calls -/

/-- The rows come in some order, and time does not go back during the call. -/
structure PublishInput.Ordered (input : PublishInput) : Prop where
  order : ∀ l, (input.order l).Perm l
  start : input.now ≤ input.ackNow 0
  later : ∀ i, input.ackNow i ≤ input.ackNow (i + 1)

/-- The loop over the claimed events is a run. -/
theorem publishEvents_run {input : PublishInput} (hin : input.Ordered)
    (hend : ∀ i, input.ackNow i ≤ t) (es : List OutboxEvent) :
    ∀ (i : ℕ) {s : Relay} {o : Outbox} {rest : List OutboxEvent} {since : ℤ}, s.Shows log o →
      rest.Perm es → (es.map OutboxEvent.id).Nodup →
      o.batches input.token = (if rest = [] then none else some ⟨rest, .ready, since⟩) →
      o.clock ≤ input.ackNow i →
      Reaches svc log input.token t o (publishEvents input i es s).2 := by
  induction es with
  | nil =>
    intro i s o rest since hs hperm _ hb hclock
    rw [hperm.eq_nil, if_pos rfl] at hb
    exact .done hs (hclock.trans (hend i)) hb
  | cons e es ih =>
    intro i s o rest since hs hperm hnd hb hclock
    have he : e ∈ rest := hperm.mem_iff.2 (List.mem_cons_self ..)
    rw [if_neg (List.ne_nil_of_mem he)] at hb
    have hfind : rest.find? (fun e' => e'.id = e.id) = some e :=
      Table.find?_key ((hperm.map OutboxEvent.id).nodup_iff.2 hnd) he
    have herase : (rest.erase e).Perm es := by
      simpa using hperm.erase e
    have hle := hclock.trans (hend i)
    refine .publish hb hfind ?_
    rw [publishEvents]
    cases hpublish : input.publish i with
    | lost => exact .publishErr input (Function.update_self ..) ⟨hs.events, hs.log⟩ hle
    | unanswered =>
      refine .deliver (Function.update_self ..) ?_
      refine .publishErr input (Function.update_self ..) ⟨hs.events, ?_⟩ hle
      simp [Relay.take, hs.log]
    | answered =>
      refine .deliver (Function.update_self ..) ?_
      refine .publishOk (Function.update_self ..) hclock ?_
      have htake : (s.take e).Shows log { o with log := o.log ++ [e.message] } :=
        ⟨hs.events, by simp [Relay.take, hs.log]⟩
      cases hack : input.acknowledge i with
      | lost =>
        exact .acknowledgeErr input .lost (Function.update_self ..)
          ⟨htake.events, htake.log⟩ (by simp) (by simp) (hend i)
      | unanswered =>
        exact .acknowledgeErr input .unanswered (Function.update_self ..)
          ⟨htake.events, htake.log⟩ (by simp) (by simp) (hend i)
      | answered =>
        have hevents : (s.take e).events = o.events := htake.events.symm
        simp only
        split_ifs with hone
        · refine .acknowledge (Function.update_self ..) (by simpa [← hevents] using hone) ?_
          refine ih (i + 1) ⟨?_, ?_⟩ herase (List.nodup_cons.1 hnd).2 (Function.update_self ..)
            (hin.later i)
          · exact congrArg (Table.update _ _) htake.events
          · exact htake.log
        · refine .acknowledgeErr input .answered (Function.update_self ..)
            ⟨htake.events, htake.log⟩ ?_ (by simp) (hend i)
          simpa [← hevents] using hone

/-- A call is a run in which only its publisher moves. -/
theorem publishClaimedBatch_run (svc : Service) {input : PublishInput} (hin : input.Ordered)
    (hend : ∀ i, input.ackNow i ≤ t) (hnd : (s.events.map OutboxEvent.id).Nodup)
    (hs : s.Shows log o) (hclock : o.clock ≤ input.now) (hb : o.batches input.token = none)
    (hfresh : ∀ e ∈ s.events, e.claimToken ≠ some input.token) :
    Reaches svc log input.token t o (publishClaimedBatch svc input s).2 := by
  have hnow : input.now ≤ t := hin.start.trans (hend 0)
  rw [publishClaimedBatch]
  split_ifs with hacc
  · exact .done hs (hclock.trans hnow) hb
  cases hclaim : input.claim with
  | lost => exact .done hs (hclock.trans hnow) hb
  | unanswered =>
    refine .claim (not_le.1 hacc) hs hclock hb hfresh ?_
    refine .step (a := .crash input.token) rfl trivial rfl ?_
    exact .done ⟨rfl, hs.log⟩ hnow (Function.update_self ..)
  | answered =>
    refine .claim (not_le.1 hacc) hs hclock hb hfresh ?_
    have hperm := hin.order (s.claim svc input).2
    refine publishEvents_run hin hend _ 0 ⟨rfl, hs.log⟩ hperm.symm ?_ (Function.update_self ..)
      hin.start
    rw [(hperm.map OutboxEvent.id).nodup_iff]
    exact Table.nodup_map_returning (f := OutboxEvent.claim _ _) hnd (fun _ => rfl) _

/-! ## The whole loop -/

/-- No row is claimed with the token. -/
def Relay.Fresh (token : ℕ) (s : Relay) : Prop :=
  ∀ e ∈ s.events, e.claimToken ≠ some token

theorem Relay.Fresh.update (h : s.Fresh token) {f : OutboxEvent → OutboxEvent}
    (hf : ∀ e, (f e).claimToken ≠ some token) (p : OutboxEvent → Bool)
    (published : List OutboxEvent) :
    Relay.Fresh token ⟨Table.update p f s.events, published⟩ := by
  intro e he
  obtain ⟨e₀, he₀, rfl⟩ := Table.mem_update.1 he
  split
  · exact hf e₀
  · exact h e₀ he₀

theorem Relay.Fresh.release (h : s.Fresh token) (input : PublishInput) :
    (s.release input).Fresh token := by
  rw [Relay.release]
  split
  · exact h
  · exact h.update (fun _ => (Option.some_ne_none token).symm) _ _

theorem Relay.Fresh.publishEvents (input : PublishInput) (es : List OutboxEvent) :
    ∀ (i : ℕ) {s : Relay}, s.Fresh token → (publishEvents input i es s).2.Fresh token := by
  induction es with
  | nil => exact fun _ _ h => h
  | cons e es ih =>
    intro i s h
    have hack : ((s.take e).acknowledge input.token (input.ackNow i) e).Fresh token :=
      Relay.Fresh.update h (fun _ => (Option.some_ne_none token).symm) _ _
    rw [RunMesh.publishEvents]
    split
    · exact h.release input
    · exact Relay.Fresh.release (s := s.take e) h input
    · split
      · exact Relay.Fresh.release (s := s.take e) h input
      · exact hack.release input
      · simp only
        split_ifs
        · exact ih (i + 1) hack
        · exact hack.release input

/-- A call leaves no claim with the token of another. -/
theorem Relay.Fresh.publishClaimedBatch {input : PublishInput} (h : s.Fresh token)
    (hne : input.token ≠ token) : (publishClaimedBatch svc input s).2.Fresh token := by
  have hclaim : (s.claim svc input).1.Fresh token :=
    h.update (fun _ heq => hne (Option.some.inj heq)) _ _
  rw [RunMesh.publishClaimedBatch]
  split_ifs
  · exact h
  split
  · exact h
  · exact hclaim
  · exact hclaim.publishEvents input _ 0

/-- The calls of a loop follow each other, each with a token of its own. -/
structure Succession (inputs : ℕ → PublishInput) : Prop where
  ordered : ∀ n, (inputs n).Ordered
  later : ∀ n i, (inputs n).ackNow i ≤ (inputs (n + 1)).now
  tokens : ∀ m n, (inputs m).token = (inputs n).token → m = n

/-- The loop is a run, whether it ends with an error or not. -/
theorem publishBatch_run {inputs : ℕ → PublishInput} (hin : Succession inputs) (calls : ℕ) :
    ∀ (n : ℕ) {s : Relay} {o : Outbox}, o.Sound → s.Shows log o → o.clock ≤ (inputs n).now →
      (∀ m, n ≤ m → o.batches (inputs m).token = none ∧ s.Fresh (inputs m).token) →
      ∀ r ∈ publishBatch svc inputs calls n s,
        ∃ as, (outbox svc).Valid o as ∧ r.2.Shows log ((outbox svc).run o as) := by
  induction calls with
  | zero => exact fun _ _ _ _ _ _ _ _ hr => nomatch hr
  | succ calls ih =>
    intro n s o ho hs hclock hfresh r hr
    obtain ⟨as, hv, hs', hclock', hbatches⟩ := publishClaimedBatch_run svc
      (hin.ordered n) (hin.later n) (hs.events ▸ ho.nodup) hs hclock (hfresh n le_rfl).1
      (hfresh n le_rfl).2
    have hfresh' : ∀ m, n + 1 ≤ m → ((outbox svc).run o as).batches (inputs m).token = none ∧
        (publishClaimedBatch svc (inputs n) s).2.Fresh (inputs m).token := by
      intro m hm
      have hne : (inputs n).token ≠ (inputs m).token := fun h => by
        have := hin.tokens n m h
        omega
      rw [hbatches, Function.update_of_ne hne.symm]
      exact ⟨(hfresh m (by omega)).1, (hfresh m (by omega)).2.publishClaimedBatch hne⟩
    rw [publishBatch] at hr
    generalize publishClaimedBatch svc (inputs n) s = call at hr hs' hfresh'
    obtain ⟨(e | _ | k), s'⟩ := call
    · obtain rfl := Option.mem_some_iff.1 hr
      exact ⟨as, hv, hs'⟩
    · obtain rfl := Option.mem_some_iff.1 hr
      exact ⟨as, hv, hs'⟩
    · obtain ⟨bs, hbv, hbs⟩ := ih (n + 1) (ho.run hv) hs' hclock' hfresh' r hr
      refine ⟨as ++ bs, ((outbox svc).along_append _ as bs o).2 ⟨hv, hbv⟩, ?_⟩
      rwa [(outbox svc).run_append]

/-- However a loop ends, the broker took every event it leaves published. -/
theorem publishBatch_taken {inputs : ℕ → PublishInput} (hin : Succession inputs) (ho : o.Sound)
    (hs : s.Shows log o) (hclock : o.clock ≤ (inputs 0).now)
    (hfresh : ∀ n, o.batches (inputs n).token = none ∧ s.Fresh (inputs n).token) {calls : ℕ}
    {r : Except PublishError Unit × Relay} (hr : r ∈ publishBatch svc inputs calls 0 s)
    {e : OutboxEvent} (he : e ∈ r.2.events) (hpub : e.publishedAt ≠ none) :
    e.message ∈ log ++ r.2.published.map OutboxEvent.message := by
  obtain ⟨as, hv, hshows⟩ := publishBatch_run hin calls 0 ho hs hclock (fun n _ => hfresh n) r hr
  rw [← hshows.log]
  exact (ho.run hv).message_mem_log (hshows.events ▸ he) hpub

example : Succession calmInput where
  ordered _ := ⟨List.reverse_perm, le_rfl, fun _ => le_rfl⟩
  later n _ := Int.ofNat_le.2 (Nat.le_succ n)
  tokens _ _ h := Nat.add_right_cancel h

end RunMesh
