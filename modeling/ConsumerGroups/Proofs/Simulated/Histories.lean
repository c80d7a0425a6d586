import Mathlib
import ConsumerGroups.Proofs.Simulated.Steps

/-! # What is committed is what is read

The marks of a group in a topic stay on their broker through any history that does not commit
to that topic of that group. So after a commit every progress query that succeeds reads its
marks, however many other commits and edits lie between.
-/

namespace ConsumerGroups.Simulated

open Message Results

/-- A step that makes no broker refuse with the code zero. -/
def Step.RefusesByCode (step : Step) : Prop :=
  ∀ edit, step.edit? = some edit → edit.RefusesByCode

/-- A step that sends a commit with an entry for a topic of a group to any broker, in whatever
way. -/
def Step.CommitsTo (step : Step) (group topic : String) : Prop :=
  ∃ request, step.request? = some request ∧ Names request group topic

namespace Session

theorem run_cons (step : Step) (rest : List Step) (session : Session) :
    ((run (step :: rest)).run session).2 =
      ((run rest).run ((Session.step step).run session).2).2 := by
  rw [run, mapM_cons_run]
  rfl

theorem after_append (settings : Settings) (before later : List Step) :
    after settings (before ++ later) = ((run later).run (after settings before)).2 := by
  have hrun (session : Session) : ((run (before ++ later)).run session).2 =
      ((run later).run ((run before).run session).2).2 := by
    induction before generalizing session with
    | nil => rfl
    | cons step rest ih => rw [List.cons_append, run_cons, run_cons, ih]
  exact hrun (start settings)

/-! ## Invariants of runs -/

/-- Sessions keep to their world. -/
theorem run_wired {session : Session} (hwired : session.Wired) (steps : List Step) :
    ((run steps).run session).2.Wired := by
  induction steps generalizing session with
  | nil => exact hwired
  | cons step rest ih =>
      rw [run_cons]
      exact ih (hwired.step step).1

theorem after_wired (settings : Settings) (steps : List Step) : (after settings steps).Wired :=
  run_wired (Wired.start settings) steps

/-- What holds of the empty cluster and is kept by every change holds of every cluster reached. -/
theorem after_of_changes {holds : ClusterState → Prop} (hstart : holds {}) {steps : List Step}
    (hkept : ∀ step ∈ steps, ∀ before later, Change (fun edit => step.edit? = some edit)
      (fun request => step.request? = some request) before later → holds before → holds later)
    (settings : Settings) : holds (after settings steps).world.cluster := by
  induction steps using List.reverseRecOn with
  | nil => exact hstart
  | append_singleton steps step ih =>
      have hbefore := ih fun other hother => hkept other (List.mem_append_left [step] hother)
      obtain ⟨-, hchange⟩ := (after_wired settings steps).step step
      rw [after_append, run_cons]
      exact hkept step (by simp) _ _ hchange hbefore

theorem after_invariant (settings : Settings) {steps : List Step}
    (hcodes : ∀ step ∈ steps, step.RefusesByCode) :
    (after settings steps).Wired ∧ (after settings steps).world.cluster.RefusesByCode :=
  ⟨after_wired settings steps, after_of_changes (by simp [ClusterState.RefusesByCode])
    (fun step hstep _ _ hchange hcluster => hchange.refusesByCode (hcodes step hstep) hcluster)
    settings⟩

/-- Steps that do not commit to a topic of a group leave its marks on every broker. -/
theorem run_markOn? {session : Session} (hwired : session.Wired) {steps : List Step}
    {group topic : String} (hothers : ∀ step ∈ steps, ¬step.CommitsTo group topic)
    (id partition : Int32) :
    ((run steps).run session).2.world.cluster.markOn? id group ⟨topic, partition⟩ =
      session.world.cluster.markOn? id group ⟨topic, partition⟩ := by
  induction steps generalizing session with
  | nil => rfl
  | cons step rest ih =>
      rw [run_cons]
      obtain ⟨hnext, hchange⟩ := hwired.step step
      have hrest := ih hnext fun other hother => hothers other (List.mem_cons_of_mem step hother)
      refine hrest.trans (hchange.markOn? (fun request hrequest hnames => ?_) id partition)
      exact hothers step List.mem_cons_self ⟨request, hrequest, hnames⟩

/-! ## Commits and queries of the console -/

/-- A console that commits successfully stores its batch on the group's coordinator. -/
theorem commit_markOn? {session : Session} (hwired : session.Wired)
    (hcluster : session.world.cluster.RefusesByCode) {group topic : String} {batch : List Progress}
    {id : Int32} (hcoordinator : session.world.cluster.coordinator group = .ok id)
    (hcommitted : ((Session.step (.call (.console (.commit group topic batch)))).run session).1 =
      .call (.committed (.ok ()))) (partition : Int32) :
    ((Session.step (.call (.console (.commit group topic batch)))).run
        session).2.world.cluster.markOn? id group ⟨topic, partition⟩ =
      (lastMark? batch partition).or
        (session.world.cluster.markOn? id group ⟨topic, partition⟩) := by
  obtain ⟨-, ⟨failure, hfailed, -⟩ | ⟨reached, hsame, hrun⟩⟩ := hwired.console.overCluster
    (fun cluster => Commitment.commit cluster group topic batch) session.world
  · have hanswer : Answer.call (.committed (.error failure)) = .call (.committed (.ok ())) := by
      rw [← hcommitted, ← hfailed]
      rfl
    cases hanswer
  · have hdone : ((Commitment.commit World.clusterView group topic batch).runFrom reached).1 =
        .ok () := by
      rw [← hrun]
      injection hcommitted with hcall
      injection hcall
    rw [← hsame] at hcluster hcoordinator ⊢
    have hstored := World.commit_markOn? hcluster hcoordinator hdone partition
    rw [← hrun] at hstored
    exact hstored

/-- A console whose query succeeds reads the world that it finds. -/
theorem progress_read {session : Session} (hwired : session.Wired) {group topic : String}
    {entries : List Progress}
    (hread : ((Session.step (.call (.console (.progress group topic)))).run session).1 =
      .call (.progress (.ok entries))) :
    ∃ reached, reached.cluster = session.world.cluster ∧
      ((Console.progressOn World.clusterView group topic).runFrom reached).1 = .ok entries := by
  obtain ⟨-, ⟨failure, hfailed, -⟩ | ⟨reached, hsame, hrun⟩⟩ := hwired.console.overCluster
    (fun cluster => Console.progressOn cluster group topic) session.world
  · have hanswer : Answer.call (.progress (.error failure)) = .call (.progress (.ok entries)) := by
      rw [← hread, ← hfailed]
      rfl
    cases hanswer
  · refine ⟨reached, hsame, ?_⟩
    rw [← hrun]
    injection hread with hcall
    injection hcall

/-- Once a batch is committed, every later query that succeeds lists the partitions of the topic
with the ends of their leaders' logs at that time. Its marks are those of the last records of the
batch and, for partitions not in it, those that the coordinator stored before. No commit for other
groups or topics and no edit in between changes this. -/
theorem progress_after_commit {settings : Settings} {before later : List Step}
    {group topic : String} {batch entries : List Progress} {id : Int32} {first last : Session}
    (hcodes : ∀ step ∈ before ++ later, step.RefusesByCode)
    (hfirst : first = after settings before)
    (hcoordinator : first.world.cluster.coordinator group = .ok id)
    (hcommitted : ((Session.step (.call (.console (.commit group topic batch)))).run first).1 =
      .call (.committed (.ok ())))
    (hothers : ∀ step ∈ later, ¬step.CommitsTo group topic)
    (hlast : last = after settings
      (before ++ .call (.console (.commit group topic batch)) :: later))
    (hstays : last.world.cluster.coordinator group = .ok id)
    (hmetadata : ∀ broker, last.world.cluster.brokers[id]? = some broker →
      broker.hidesMetadata = false)
    (hread : ((Session.step (.call (.console (.progress group topic)))).run last).1 =
      .call (.progress (.ok entries))) :
    ∃ partitions, last.world.cluster.topics[topic]? = some partitions ∧
      entries.length = partitions.length ∧
      ∀ (place : Nat) partition, partitions[place]? = some partition →
        ∃ log, last.world.cluster.logOf? ⟨topic, partition⟩ = some log ∧
          entries[place]? = some
            { partition
              oldest := log.oldest
              newest := log.newest
              mark := ((lastMark? batch partition).or
                (first.world.cluster.markOn? id group ⟨topic, partition⟩)).getD noMark } := by
  subst hfirst
  obtain ⟨hwired, hcluster⟩ := after_invariant settings fun step hstep =>
    hcodes step (List.mem_append_left later hstep)
  have hstored := commit_markOn? hwired hcluster hcoordinator hcommitted
  obtain ⟨hnext, -⟩ := hwired.step (.call (.console (.commit group topic batch)))
  have hkept := run_markOn? hnext hothers id
  obtain ⟨hlastWired, hlastCluster⟩ : last.Wired ∧ last.world.cluster.RefusesByCode := by
    rw [hlast]
    apply after_invariant settings
    intro step hstep
    rcases List.mem_append.mp hstep with hbefore | hstep
    · exact hcodes step (List.mem_append_left later hbefore)
    · rcases List.mem_cons.mp hstep with rfl | hlater
      · -- A commit is no edit, so that it makes no broker refuse.
        intro edit hedit
        cases hedit
      · exact hcodes step (List.mem_append_right before hlater)
  rw [after_append, run_cons] at hlast
  obtain ⟨reached, hsame, hentries⟩ := progress_read hlastWired hread
  rw [← hsame] at hstays hmetadata hlastCluster
  have hall := World.progress_entries hlastCluster hstays hmetadata hentries
  simp only [hsame] at hall
  -- The marks that are read are still those that were there after the commit.
  rw [hlast] at hall ⊢
  simp only [hkept, hstored] at hall
  exact hall

/-- A partition committed twice in one batch, then committed by another group. -/
theorem progress_after_repeated_commit :
    let before : List Step :=
      [.editCluster (.appendPartition ⟨"t", 0⟩ 1 ⟨5, 9⟩), .editCluster (.assignCoordinator "g" 2)]
    let batch := [Progress.toCommit 0 ⟨6, "a"⟩, Progress.toCommit 0 ⟨7, "b"⟩]
    let later : List Step := [.call (.direct (.commit "h" "t" [Progress.toCommit 0 ⟨8, "c"⟩]))]
    let entries : List Progress := [{ partition := 0, oldest := 5, newest := 9, mark := ⟨7, "b"⟩ }]
    let first := after {} before
    let last := after {} (before ++ .call (.console (.commit "g" "t" batch)) :: later)
    ((Session.step (.call (.console (.progress "g" "t")))).run last).1 =
        .call (.progress (.ok entries)) ∧
      ∃ partitions, last.world.cluster.topics["t"]? = some partitions ∧
        entries.length = partitions.length ∧
        ∀ (place : Nat) partition, partitions[place]? = some partition →
          ∃ log, last.world.cluster.logOf? ⟨"t", partition⟩ = some log ∧
            entries[place]? = some
              { partition
                oldest := log.oldest
                newest := log.newest
                mark := ((lastMark? batch partition).or
                  (first.world.cluster.markOn? 2 "g" ⟨"t", partition⟩)).getD noMark } := by
  intro before batch later entries first last
  -- The tables are trees with texts as keys, which do not reduce by unfolding alone.
  have hread : ((Session.step (.call (.console (.progress "g" "t")))).run last).1 =
      .call (.progress (.ok entries)) := by cbv
  have hhides : last.world.cluster.brokers[(2 : Int32)]?.map (·.hidesMetadata) = some false := by cbv
  have hstays : last.world.cluster.coordinator "g" = .ok 2 := by cbv
  have hothers : ∀ step ∈ later, ¬step.CommitsTo "g" "t" := by
    rintro step hstep ⟨request, hrequest, hgroup, -⟩
    obtain rfl := List.mem_singleton.mp hstep
    cases hrequest
    exact absurd hgroup (by decide)
  refine ⟨hread, progress_after_commit ?_ rfl rfl rfl hothers rfl hstays ?_ hread⟩
  · intro step hstep edit hedit
    rcases hstep with _ | ⟨_, _ | ⟨_, _ | ⟨_, ⟨⟩⟩⟩⟩ <;> cases hedit <;> trivial
  · intro broker hbroker
    rw [hbroker] at hhides
    exact Option.some.inj hhides

end Session

end ConsumerGroups.Simulated
