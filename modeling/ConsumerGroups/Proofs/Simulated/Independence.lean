import ConsumerGroups.Proofs.Simulated.Costs
import ConsumerGroups.Proofs.Simulated.Histories
import ConsumerGroups.Proofs.Simulated.Calls

/-! # Queries do not disturb one another

A query leaves its footprint and nothing else. So it does not matter in which order queries are
made, nor how their calls are interleaved: each has the answer that it has alone, and the session
that is reached in the end is the same.
-/

namespace ConsumerGroups.Simulated

open Message

/-! ## Queries call by call -/

namespace Session

variable {α : Type}

/-- A task in the world can be done call by call in a session. -/
theorem madeOf_onWorld {ends : α → Prop} {task : StateM World α}
    (htask : MadeOf AskCall ends task) : MadeOf QueryCall ends (onWorld task) := by
  obtain ⟨thread, hmakes, rfl⟩ := htask
  induction hmakes with
  | done hends => exact .pure hends
  | @call β action next hask _ ih =>
      have hcall : MadeOf QueryCall (fun value => ∃ world, value = (action.run world).1)
          (onWorld action) :=
        .call (.ask hask) fun session => ⟨session.world, rfl⟩
      change MadeOf QueryCall ends (onWorld action >>= fun value => onWorld (next value).run)
      refine hcall.bind fun value hvalue => ?_
      obtain ⟨world, rfl⟩ := hvalue
      exact ih world

/-- Reaches the cluster, and goes on with a task in the world. -/
def overCluster (task : Errand World α) : StateM Session (Except Failure α) := do
  match ← onConsole (ExceptT.run Links.reachCluster) with
  | .ok _ => onWorld task.run
  | .error failure => return .error failure

/-- Reaches the registry, and goes on with a task in the world below the chroot. -/
def overRegistry (task : String → Errand World α) : StateM Session (Except Failure α) := do
  match ← onConsole (ExceptT.run Links.reachRegistry) with
  | .error failure => return .error failure
  | .ok _ =>
    match ← onConsole (ExceptT.run Console.chroot) with
    | .ok chroot => onWorld (task chroot).run
    | .error failure => return .error failure

theorem madeOf_overCluster {task : Errand World α}
    (htask : MadeOf AskCall (IfOk fun _ => True) task.run) :
    MadeOf QueryCall (IfOk fun _ => True) (overCluster task) := by
  refine (MadeOf.call .reachCluster fun _ => ifOk_true _).bind fun result _ => ?_
  cases result with
  | error failure => exact .pure trivial
  | ok cluster => exact madeOf_onWorld htask

theorem madeOf_overRegistry {task : String → Errand World α}
    (htask : ∀ chroot, MadeOf AskCall (IfOk fun _ => True) (task chroot).run) :
    MadeOf QueryCall (IfOk fun _ => True) (overRegistry task) := by
  refine (MadeOf.call .reachRegistry fun _ => ifOk_true _).bind fun result _ => ?_
  cases result with
  | error failure => exact .pure trivial
  | ok registry =>
      refine (MadeOf.call .chroot fun _ => ifOk_true _).bind fun result _ => ?_
      cases result with
      | error failure => exact .pure trivial
      | ok chroot => exact madeOf_onWorld (htask chroot)

theorem overCluster_eq {session : Session} (hwired : session.Wired)
    (task : Cluster World → Errand World α) :
    (overCluster (task World.clusterView)).run session =
      (onConsole (ExceptT.run (Links.reachCluster >>= fun cluster =>
        LinkedErrand.ofTask (task cluster)))).run session := by
  rw [overCluster_run hwired, overCluster, Results.bind_run, run_reachCluster hwired.console.dialer]
  cases session.clusterReached <;> rfl

theorem overRegistry_eq {session : Session} (hwired : session.Wired)
    (task : Registry World → String → Errand World α) :
    (overRegistry (task World.registryView)).run session =
      (onConsole (ExceptT.run (Links.reachRegistry >>= fun registry =>
        Console.chroot >>= fun chroot =>
          LinkedErrand.ofTask (task registry chroot)))).run session := by
  rw [overRegistry_run hwired, overRegistry, Results.bind_run,
    run_reachRegistry hwired.console.dialer]
  cases session.registryReached with
  | error failure => rfl
  | ok registry =>
      change (onWorld (task World.registryView
        session.connectRegistry.console.settings.registry.chroot).run).run _ = _
      rw [session.settings_connectRegistry]

/-- What the survey of one share comes to, and when. -/
abbrev ShareOutcome := Timed (Except Failure (List (Nat × Progress)))

/-- A thread that surveys the share of one broker, call by call. -/
def Surveys (topic : String) (share : Range.Share World) (thread : Thread Session ShareOutcome) :
    Prop :=
  thread.Makes QueryCall (fun _ => True) ∧ thread.run = onWorld (share.survey topic)

/-- Every share of a survey can be surveyed call by call. -/
theorem exists_surveys (topic : String) {shares : List (Range.Share World)}
    (hbrokers : ∀ share ∈ shares, ∃ id, share.broker = World.broker id) :
    ∃ threads, List.Forall₂ (Surveys topic) shares threads := by
  induction shares with
  | nil => exact ⟨[], .nil⟩
  | cons share rest ih =>
      obtain ⟨hbroker, hrest⟩ := List.forall_mem_cons.mp hbrokers
      obtain ⟨thread, hthread⟩ := madeOf_onWorld (World.madeOf_shareSurvey topic hbroker)
      obtain ⟨threads, hthreads⟩ := ih hrest
      exact ⟨thread :: threads, .cons hthread hthreads⟩

theorem run_surveys {topic : String} {shares : List (Range.Share World)}
    {threads : List (Thread Session ShareOutcome)}
    (hsurveys : List.Forall₂ (Surveys topic) shares threads) (session : Session) :
    (threads.mapM Thread.run).run session =
      (onWorld (shares.mapM (·.survey topic))).run session := by
  induction hsurveys generalizing session with
  | nil => rfl
  | @cons share _ rest _ hfirst _ ih =>
      have hcons : (onWorld ((share :: rest).mapM (·.survey topic))).run session =
          (onWorld (share.survey topic) >>= fun value =>
            onWorld (rest.mapM (·.survey topic)) >>= fun values =>
              pure (value :: values)).run session := by
        rw [List.mapM_cons]
        rfl
      rw [Results.mapM_cons_run, hfirst.2, ih, hcons]
      rfl

/-- However the requests of a survey are interleaved, its brokers answer and count as they do when
each is heard out before the next is asked. -/
theorem surveys_interleaved {session : Session} (hwired : session.Wired) {topic : String}
    {shares : List (Range.Share World)}
    {threads : List (Thread Session ShareOutcome)}
    (hsurveys : List.Forall₂ (Surveys topic) shares threads)
    {values : List ShareOutcome} {last : Session}
    (hall : Interleaves threads session (values.map .done) last) :
    (onWorld (shares.mapM (·.survey topic))).run session = (values, last) := by
  have hcomes : List.Forall₂ (fun thread share =>
      (∃ value, ∃ trace : Footprint, thread.ComesTo session value trace) ∧
        Surveys topic share thread) threads shares :=
    hsurveys.flip.imp fun _ _ hthread =>
      ⟨hthread.1.exists_comesTo fun _ _ hcall => hcall.leaves hwired.console.dialer, hthread⟩
  rw [← run_surveys hsurveys]
  exact hall.eq_mapM ((List.forall₂_and_left threads shares).mp hcomes).1

end Session

/-- A thread that makes a query call by call. Whether a survey hears one broker out before it asks
the next is left open: all that counts is what the thread comes to. -/
structure Query.MadeBy (query : Query) (thread : Thread Session Answer) : Prop where
  calls : thread.Makes QueryCall fun _ => True
  runs : ∀ session : Session, session.Wired →
    thread.run.run session = (Session.step (.call query.call)).run session

namespace Query

theorem exists_thread (query : Query) : ∃ thread, query.MadeBy thread := by
  have hthread {α : Type} (wrap : α → CallAnswer) {action : StateM Session α} {ends : α → Prop}
      (hmade : MadeOf QueryCall ends action)
      (hruns : ∀ session : Session, session.Wired →
        (action >>= fun value => pure (Answer.call (wrap value))).run session =
          (Session.step (.call query.call)).run session) : ∃ thread, query.MadeBy thread := by
    have hall : MadeOf QueryCall (fun _ => True)
        (action >>= fun value => pure (Answer.call (wrap value))) :=
      hmade.bind fun _ _ => .pure trivial
    obtain ⟨thread, hmakes, hrun⟩ := hall
    exact ⟨thread, hmakes, fun session hwired => hrun ▸ hruns session hwired⟩
  cases query with
  | progress group topic =>
      refine hthread .progress (Session.madeOf_overCluster
        (World.madeOf_progressOn group topic)) fun session hwired => ?_
      rw [Results.bind_run, Session.overCluster_eq hwired fun cluster =>
        Console.progressOn cluster group topic]
      rfl
  | owners group topic =>
      refine hthread .owners (Session.madeOf_overRegistry fun chroot =>
        World.madeOf_scan chroot group topic) fun session hwired => ?_
      rw [Results.bind_run, Session.overRegistry_eq hwired fun registry chroot =>
        Ownership.scan registry chroot group topic]
      rfl
  | ownersByGroup topic =>
      refine hthread .ownersByGroup (Session.madeOf_overRegistry fun chroot =>
        World.madeOf_scanGroups chroot topic) fun session hwired => ?_
      rw [Results.bind_run, Session.overRegistry_eq hwired fun registry chroot =>
        Ownership.scanGroups registry chroot topic]
      rfl
  | survey topic =>
      have hmade := Session.madeOf_onWorld (World.madeOf_survey topic)
      exact hthread .progress hmade fun _ _ => rfl
  | fetchMarks group topic partitions =>
      have hmade := Session.madeOf_onWorld (World.madeOf_fetch group topic partitions)
      exact hthread .marks hmade fun _ _ => rfl
  | scan chroot group topic =>
      have hmade := Session.madeOf_onWorld (World.madeOf_scan chroot group topic)
      exact hthread .owners hmade fun _ _ => rfl
  | scanGroups chroot topic =>
      have hmade := Session.madeOf_onWorld (World.madeOf_scanGroups chroot topic)
      exact hthread .ownersByGroup hmade fun _ _ => rfl

/-- What a query answers in a session in which no other is made. -/
def answerIn (session : Session) (query : Query) : Answer :=
  ((Session.step (.call query.call)).run session).1

/-- Call by call, a query comes to its answer and leaves its footprint. -/
theorem MadeBy.exists_comesTo {query : Query} {thread : Thread Session Answer}
    (hmade : query.MadeBy thread) {session : Session} (hwired : session.Wired) :
    ∃ trace : Footprint, thread.ComesTo session (query.answerIn session) trace ∧
      trace +ᵥ session = query.footprint session +ᵥ session := by
  obtain ⟨value, trace, hcomes⟩ :=
    hmade.calls.exists_comesTo (E := Footprint) fun _ _ hcall => hcall.leaves hwired.console.dialer
  have hrun := hcomes.leaves 0
  rw [zero_vadd, hmade.runs session hwired] at hrun
  have hvalue : query.answerIn session = value := congrArg Prod.fst hrun
  have htrace := congrArg Prod.snd hrun
  rw [Session.query_touches hwired] at htrace
  exact ⟨trace, hvalue ▸ hcomes, htrace.symm⟩

end Query

/-! ## Many queries -/

namespace Session

theorem Wired.touch {session : Session} (hwired : session.Wired) (footprint : Footprint) :
    (footprint +ᵥ session).Wired := by
  rcases footprint with ⟨cluster, registry, requests⟩
  have hcharged : (session.charge requests).Wired := ⟨hwired.console, hwired.links⟩
  cases cluster <;> cases registry
  · exact hcharged
  · exact hcharged.connectRegistry
  · exact hcharged.connectCluster
  · exact hcharged.connectRegistry.connectCluster

/-- A query has the same answer, and leaves the same behind, after any others. -/
theorem leaves_query {session : Session} (hwired : session.Wired) (query : Query) :
    LeavesBehind session (step (.call query.call)) (query.answerIn session)
      (query.footprint session) := by
  intro others
  obtain ⟨thread, hmade⟩ := query.exists_thread
  obtain ⟨trace, hcomes, htrace⟩ := hmade.exists_comesTo hwired
  have hrun := hcomes.leaves others
  rw [hmade.runs _ (hwired.touch others), vadd_comm trace, htrace, vadd_comm others] at hrun
  exact hrun

/-- What all queries of a list leave behind. -/
def touchAll (session : Session) (queries : List Query) : Session :=
  session.touch (queries.map (·.footprint session)).sum

theorem touchAll_perm (session : Session) {queries order : List Query}
    (hperm : order.Perm queries) : session.touchAll order = session.touchAll queries := by
  rw [touchAll, touchAll, (hperm.map _).sum_eq]

/-- In whatever order queries are made, each has the answer that it has alone. -/
theorem run_queries {session : Session} (hwired : session.Wired) (queries : List Query) :
    (run (queries.map fun query => .call query.call)).run session =
      (queries.map (·.answerIn session), session.touchAll queries) := by
  have houtcomes : List.Forall₂
      (fun query outcome => LeavesBehind session (step (.call query.call)) outcome.1 outcome.2)
      queries (queries.map fun query => (query.answerIn session, query.footprint session)) :=
    List.forall₂_map_right_iff.mpr
      (List.forall₂_same.mpr fun query _ => leaves_query hwired query)
  have hall := mapM_leaves houtcomes (0 : Footprint)
  rw [zero_vadd, List.map_map, List.map_map] at hall
  rw [run, List.mapM_map]
  exact hall

/-- Threads that make queries do so one after another. -/
theorem run_threads {session : Session} (hwired : session.Wired) {queries : List Query}
    {threads : List (Thread Session Answer)} (hmade : List.Forall₂ Query.MadeBy queries threads) :
    (threads.mapM Thread.run).run session =
      (run (queries.map fun query => .call query.call)).run session := by
  induction hmade generalizing session with
  | nil => rfl
  | @cons query thread _ _ hfirst _ ih =>
      have hnext : ((step (.call query.call)).run session).2.Wired := by
        rw [query_touches hwired]
        exact hwired.touch (query.footprint session)
      rw [Results.mapM_cons_run, hfirst.runs session hwired, ih hnext, List.map_cons, run, run,
        Results.mapM_cons_run]

/-- However the calls of queries are interleaved, each has the answer that it has alone. -/
theorem interleaved {session : Session} (hwired : session.Wired) {queries : List Query}
    {threads : List (Thread Session Answer)} (hmade : List.Forall₂ Query.MadeBy queries threads)
    {values : List Answer} {last : Session}
    (hall : Interleaves threads session (values.map .done) last) :
    values = queries.map (·.answerIn session) ∧ last = session.touchAll queries := by
  have hcomes : List.Forall₂ (fun thread query =>
      (∃ value, ∃ trace : Footprint, thread.ComesTo session value trace) ∧ query.MadeBy thread)
      threads queries :=
    hmade.flip.imp fun _ _ hthread =>
      ⟨⟨_, (hthread.exists_comesTo hwired).imp fun _ => And.left⟩, hthread⟩
  have hrun := hall.eq_mapM ((List.forall₂_and_left threads queries).mp hcomes).1
  rw [run_threads hwired hmade, run_queries hwired, Prod.mk.injEq] at hrun
  exact ⟨hrun.1.symm, hrun.2.symm⟩

/-- Queries are read-only, at an exact cost, and so it does not matter in which order they are made
or whether their calls are interleaved. Nor does it matter within a survey whether its brokers are
heard one after another or their requests are interleaved. -/
theorem queries_commute (settings : Settings) (steps : List Step) :
    let session := after settings steps
    (∀ query : Query, let last := ((step (.call query.call)).run session).2
      last = session.touch (query.footprint session) ∧
        last.links = session.links ∧ last.world.registry = session.world.registry ∧
        last.world.refusing = session.world.refusing ∧
        last.world.cluster = session.world.cluster.charge (query.footprint session).requests ∧
        last.console.settings = session.console.settings ∧
        last.console.dialer = session.console.dialer ∧
        last.console.slots.closed = session.console.slots.closed) ∧
      (∀ topic leaders, session.world.cluster.leadersOf topic = .ok leaders →
        ∀ (id : Int32) (broker : BrokerState), session.world.cluster.brokers[id]? = some broker →
          ((step (.call (.direct (.survey topic)))).run session).2.world.cluster.brokers[id]? =
            some (broker.count (if id ∈ leaders then
              (if broker.outage.isSome ∧ broker.delay = 0 then 1 else 2) else 0))) ∧
      (∀ queries order : List Query, order.Perm queries →
        (run (order.map fun query => .call query.call)).run session =
          (order.map (·.answerIn session), session.touchAll queries)) ∧
      (∀ query : Query, ∃ thread, query.MadeBy thread) ∧
      (∀ (queries : List Query) (threads : List (Thread Session Answer)),
        List.Forall₂ Query.MadeBy queries threads →
          (∃ (values : List Answer) (last : Session),
            Interleaves threads session (values.map .done) last) ∧
            ∀ (values : List Answer) (last : Session),
              Interleaves threads session (values.map .done) last →
                values = queries.map (·.answerIn session) ∧ last = session.touchAll queries) ∧
      ∀ (topic : String) (shares : List (Range.Share World)),
        (∀ share ∈ shares, ∃ id, share.broker = World.broker id) →
          (∃ threads, List.Forall₂ (Surveys topic) shares threads) ∧
          ∀ threads, List.Forall₂ (Surveys topic) shares threads →
            (∃ (values : List ShareOutcome) (last : Session),
              Interleaves threads session (values.map .done) last) ∧
              ∀ (values : List ShareOutcome) (last : Session),
                Interleaves threads session (values.map .done) last →
                  (onWorld (shares.mapM (·.survey topic))).run session = (values, last) := by
  intro session
  have hwired : session.Wired := after_wired settings steps
  refine ⟨fun query => ?_, fun topic leaders hleaders id broker hbroker => ?_,
    fun queries order horder => ?_, Query.exists_thread, fun queries threads hmade => ?_,
    fun topic shares hbrokers => ⟨exists_surveys topic hbrokers, fun threads hsurveys => ?_⟩⟩
  · rw [query_touches hwired query]
    exact ⟨rfl, session.touch_fields (query.footprint session)⟩
  · have hsurvey := query_touches hwired (.survey topic)
    have hcost : session.world.cluster.surveyRequests topic id =
        if id ∈ leaders then (if broker.outage.isSome ∧ broker.delay = 0 then 1 else 2) else 0 := by
      simp only [ClusterState.surveyRequests, hleaders, ClusterState.requestsAt, hbroker,
        Option.map_some, Option.getD_some, BrokerState.surveyRequests]
    rw [Query.call] at hsurvey
    rw [hsurvey, cluster_touch, ClusterState.getElem?_charge, hbroker, Option.map_some, ← hcost]
    rfl
  · rw [run_queries hwired, touchAll_perm session horder]
  · exact ⟨exists_interleaving threads session, fun values last => interleaved hwired hmade⟩
  · exact ⟨exists_interleaving threads session, fun values last =>
      surveys_interleaved hwired hsurveys⟩

/-- A survey and a query for progress are interleaved, and so are the requests of a survey to the
two leaders. One of them is down. -/
theorem queries_commute_beside_outage :
    let steps : List Step :=
      [.editCluster (.appendPartition ⟨"t", 0⟩ 1 ⟨5, 9⟩),
        .editCluster (.appendPartition ⟨"t", 1⟩ 2 ⟨6, 8⟩),
        .editBroker 2 (.breakDown "gone")]
    let session := after {} steps
    let queries : List Query := [.survey "t", .progress "g" "t"]
    let shares : List (Range.Share World) :=
      [{ broker := World.broker 1, places := [(0, 0)] },
        { broker := World.broker 2, places := [(1, 1)] }]
    (∃ (threads : List (Thread Session Answer)) (values : List Answer) (last : Session),
      List.Forall₂ Query.MadeBy queries threads ∧
      Interleaves threads session (values.map .done) last ∧
      ((run (queries.reverse.map fun query => .call query.call)).run session).2 = last ∧
      last.world.clusterConnects = 1 ∧
      last.world.cluster.brokers[(1 : Int32)]?.map (·.listCalls) = some 4 ∧
      last.world.cluster.brokers[(2 : Int32)]?.map (·.listCalls) = some 2) ∧
    ∃ (threads : List (Thread Session ShareOutcome)) (values : List ShareOutcome) (last : Session),
      List.Forall₂ (Surveys "t") shares threads ∧
      Interleaves threads session (values.map .done) last ∧
      (onWorld (shares.mapM (·.survey "t"))).run session = (values, last) := by
  intro steps session queries shares
  obtain ⟨-, -, horder, hthreads, hconcurrent, hfanout⟩ := queries_commute {} steps
  obtain ⟨first, hfirst⟩ := hthreads (.survey "t")
  obtain ⟨second, hsecond⟩ := hthreads (.progress "g" "t")
  have hmade : List.Forall₂ Query.MadeBy queries [first, second] :=
    .cons hfirst (.cons hsecond .nil)
  obtain ⟨⟨values, last, hall⟩, hends⟩ := hconcurrent queries [first, second] hmade
  obtain ⟨-, rfl⟩ := hends values last hall
  have hbrokers : ∀ share ∈ shares, ∃ id, share.broker = World.broker id :=
    List.forall_mem_cons.mpr ⟨⟨1, rfl⟩, List.forall_mem_singleton.mpr ⟨2, rfl⟩⟩
  obtain ⟨⟨requests, hrequests⟩, hheard⟩ := hfanout "t" shares hbrokers
  obtain ⟨⟨outcomes, reached, hmixed⟩, hsame⟩ := hheard requests hrequests
  refine ⟨⟨[first, second], values, _, hmade, hall, ?_, ?_, ?_, ?_⟩,
    requests, outcomes, reached, hrequests, hmixed, hsame outcomes reached hmixed⟩
  · exact congrArg Prod.snd (horder queries queries.reverse (List.reverse_perm queries))
  · cbv
  · cbv
  · cbv

end Session

end ConsumerGroups.Simulated
