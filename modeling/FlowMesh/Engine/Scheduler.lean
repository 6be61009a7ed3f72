import FlowMesh.Engine.Cron
import FlowMesh.Library.Dict
import FlowMesh.Library.Machine

/-!
# The scheduler

`WorkflowScheduler` of `flowmesh_engine/scheduler.py`: its jobs, and `check_due_jobs`, which
triggers every enabled job whose schedule is due. A run is a sequence of checks at any times;
`last_run_at` is written by them and read by none, so that what a check triggers depends on its time
alone (`answers_check`).

`prompt_iff` says in which runs no job is triggered twice in a minute, every job only in minutes in
which it is due, and a job whose schedule means nothing never.
-/

namespace FlowMesh.Scheduler

open Python CronScheduleParser

/-! ## Jobs -/

/-- `ScheduledJob`. -/
structure ScheduledJob where
  jobId : String
  name : String
  schedule : String
  workflowId : String
  tenantId : String
  payload : List (String × Json)
  enabled : Bool
  lastRunAt : Option String
  lastStatus : Option String
  runCount : ℕ
  failureCount : ℕ

/-- `WorkflowScheduler`: the jobs, each under its id. -/
structure WorkflowScheduler where
  jobs : Dict String ScheduledJob
  jobId_eq : ∀ k job, jobs.get? k = some job → job.jobId = k

/-- What `trigger_now` returns. -/
structure Execution where
  jobId : String
  name : String
  status : String
  runId : String
  executedAt : String

/-- What `trigger_now` reads of the clock: the date, and `time.time()` in whole seconds. -/
structure Clock where
  date : DateTime
  time : ℤ

namespace WorkflowScheduler

/-- `WorkflowScheduler()`. -/
def new : WorkflowScheduler := ⟨.empty, fun _ _ h => nomatch h⟩

/-- `self._jobs[job.job_id] = job`. -/
def put (s : WorkflowScheduler) (job : ScheduledJob) : WorkflowScheduler where
  jobs := s.jobs.set job.jobId job
  jobId_eq k job' h := by
    rw [Dict.get?_set] at h
    split at h
    · next hk =>
      cases h
      exact hk.symm
    · exact s.jobId_eq k job' h

/-- `register_job`. -/
def registerJob (s : WorkflowScheduler) (jobId name schedule workflowId tenantId : String)
    (payload : Option (List (String × Json))) : ScheduledJob × WorkflowScheduler :=
  let job : ScheduledJob :=
    { jobId, name, schedule, workflowId, tenantId
      payload := payload.getD []
      enabled := true
      lastRunAt := none
      lastStatus := none
      runCount := 0
      failureCount := 0 }
  (job, s.put job)

/-- `trigger_now`. -/
def triggerNow (s : WorkflowScheduler) (jobId : String) (clock : Clock) :
    Except PyError (Execution × WorkflowScheduler) :=
  match s.jobs.get? jobId with
  | none => .error ⟨.valueError, "Scheduled job '" ++ jobId ++ "' not found"⟩
  | some job =>
    let executedAt := clock.date.isoformat
    .ok (⟨job.jobId, job.name, "TRIGGERED", "run_sched_" ++ toString clock.time, executedAt⟩,
      s.put { job with
        lastRunAt := some executedAt
        runCount := job.runCount + 1
        lastStatus := some "COMPLETED" })

/-- A check: its time, and the clock that each trigger reads. -/
structure Check where
  now : DateTime
  clock : String → Clock

variable (u : Unicode)

/-- The loop of `check_due_jobs`. A trigger changes neither whether a job is enabled nor its
schedule, so that the jobs are gone through as they were at the beginning. -/
def checkLoop (c : Check) : List ScheduledJob → List String → WorkflowScheduler →
    Except PyError (List String) × WorkflowScheduler
  | [], triggered, s => (.ok triggered, s)
  | job :: jobs, triggered, s =>
    if job.enabled && isDue u job.schedule c.now then
      match s.triggerNow job.jobId (c.clock job.jobId) with
      | .ok (_, s') => checkLoop c jobs (triggered ++ [job.jobId]) s'
      | .error e => (.error e, s)
    else checkLoop c jobs triggered s

/-- `check_due_jobs`. -/
def checkDueJobs (s : WorkflowScheduler) (c : Check) :
    Except PyError (List String) × WorkflowScheduler :=
  checkLoop u c s.jobs.values [] s

/-! ## What a check triggers -/

/-- What a check reads of a job. -/
structure Plan where
  jobId : String
  schedule : String
  enabled : Bool

/-- What checks read of the jobs. -/
def plans (s : WorkflowScheduler) : List Plan :=
  s.jobs.values.map fun job => ⟨job.jobId, job.schedule, job.enabled⟩

/-- The job is enabled, and its schedule is due. -/
def Plan.fires (p : Plan) (now : DateTime) : Bool := p.enabled && isDue u p.schedule now

section Checks

variable {u} {s s' : WorkflowScheduler} {job : ScheduledJob}

theorem get?_jobId (hjob : job ∈ s.jobs.values) : s.jobs.get? job.jobId = some job := by
  obtain ⟨k, hk⟩ := Dict.mem_values_iff.1 hjob
  rw [s.jobId_eq k job hk]
  exact hk

/-- A job that is there can be triggered, and nothing that checks read changes. -/
theorem triggerNow_spec {jobId : String} (hjob : jobId ∈ s.plans.map Plan.jobId) (clock : Clock) :
    ∃ x s', s.triggerNow jobId clock = .ok (x, s') ∧ s'.plans = s.plans := by
  obtain ⟨p, hp, rfl⟩ := List.mem_map.1 hjob
  obtain ⟨job, hmem, rfl⟩ := List.mem_map.1 hp
  have hget := get?_jobId hmem
  unfold triggerNow
  rw [hget]
  exact ⟨_, _, rfl, Dict.map_values_set hget rfl⟩

theorem checkLoop_spec (c : Check) {jobs : List ScheduledJob}
    (hjobs : ∀ job ∈ jobs, job.jobId ∈ s.plans.map Plan.jobId) (triggered : List String) :
    ∃ s', checkLoop u c jobs triggered s =
      (.ok (triggered ++ (jobs.filter fun job => job.enabled && isDue u job.schedule c.now).map
        ScheduledJob.jobId), s') ∧ s'.plans = s.plans := by
  induction jobs generalizing triggered s with
  | nil => exact ⟨s, by rw [checkLoop, List.filter_nil, List.map_nil, List.append_nil], rfl⟩
  | cons job jobs ih =>
    have htail : ∀ job ∈ jobs, job.jobId ∈ s.plans.map Plan.jobId := fun job hjob =>
      hjobs job (List.mem_cons_of_mem _ hjob)
    unfold checkLoop
    by_cases hfires : (job.enabled && isDue u job.schedule c.now) = true
    · obtain ⟨x, s₁, htrigger, hplans⟩ :=
        triggerNow_spec (hjobs job List.mem_cons_self) (c.clock job.jobId)
      rw [if_pos hfires, htrigger]
      rw [← hplans] at htail
      obtain ⟨s', hloop, hplans'⟩ := ih htail (triggered ++ [job.jobId])
      refine ⟨s', ?_, hplans'.trans hplans⟩
      dsimp only
      rw [hloop, List.filter_cons, if_pos hfires, List.map_cons, List.append_assoc]
      rfl
    · rw [if_neg hfires, List.filter_cons, if_neg hfires]
      exact ih htail triggered

/-- **A check** triggers the enabled jobs that are due, whatever was triggered before. -/
theorem checkDueJobs_spec (s : WorkflowScheduler) (c : Check) :
    ∃ s', s.checkDueJobs u c =
      (.ok ((s.plans.filter fun p => p.fires u c.now).map Plan.jobId), s') ∧
        s'.plans = s.plans := by
  have hjobs : ∀ job ∈ s.jobs.values, job.jobId ∈ s.plans.map Plan.jobId := by
    intro job hjob
    unfold plans
    rw [List.map_map]
    exact List.mem_map_of_mem (f := Plan.jobId ∘ _) hjob
  obtain ⟨s', hloop, hplans⟩ := checkLoop_spec (u := u) c hjobs []
  refine ⟨s', ?_, hplans⟩
  unfold checkDueJobs plans
  rw [hloop, List.filter_map, List.map_map]
  rfl

/-- A run answers check by check. -/
theorem answers_check (s : WorkflowScheduler) (checks : List Check) :
    Machine.answers (checkDueJobs u) s checks =
      checks.map fun c => .ok ((s.plans.filter fun p => p.fires u c.now).map Plan.jobId) := by
  induction checks generalizing s with
  | nil => rfl
  | cons c checks ih =>
    obtain ⟨s', hcheck, hplans⟩ := checkDueJobs_spec (u := u) s c
    rw [Machine.answers, hcheck, ih, hplans, List.map_cons]

end Checks

/-! ## Runs -/

/-- The times of the checks that triggered a job. -/
def firings (s : WorkflowScheduler) (checks : List Check) (jobId : String) : List DateTime :=
  (checks.zip (Machine.answers (checkDueJobs u) s checks)).flatMap fun (c, answer) =>
    match answer with
    | .ok triggered => (triggered.filter (· = jobId)).map fun _ => c.now
    | .error _ => []

/-- The calendar minute of a time. -/
def minuteOf (now : DateTime) : ℕ × ℕ × ℕ × ℕ × ℕ :=
  (now.year, now.month, now.day, now.hour, now.minute)

/-- The schedule has five fields, or is an alias. -/
def IsCron (schedule : String) : Prop :=
  (split schedule.toList).length = 5 ∨ schedule ∈ specialSchedules.map Prod.fst

/-- What a schedule stands for. -/
def expand (schedule : String) : String := (specialSchedules.lookup schedule).getD schedule

/-- What is asked of the times at which a job was triggered: they are in different minutes, the
schedule was due at each of them, by the rule of cron if it is an expression, and there are none if
the schedule means nothing. -/
structure Prompt (restricted : List CronItem → Bool) (validInterval : String → Prop)
    (schedule : String) (firings : List DateTime) : Prop where
  once : IsCron schedule → (firings.map minuteOf).Nodup
  due : IsCron schedule → ∀ now ∈ firings, isDue u schedule now = true ∧
    ∀ e : CronExpression, e.Writes (expand schedule) → e.Due restricted now
  never : ¬IsCron schedule → ¬validInterval schedule → firings = []

section Runs

variable {u} {s : WorkflowScheduler} {job : ScheduledJob}

theorem nodup_jobIds (s : WorkflowScheduler) : (s.plans.map Plan.jobId).Nodup := by
  have hkeys : s.plans.map Plan.jobId = s.jobs.keys := by
    unfold plans Dict.values Dict.keys
    rw [List.map_map, List.map_map]
    refine List.map_congr_left fun p hp => s.jobId_eq p.1 p.2 ?_
    exact Dict.mem_items_iff.1 hp
  rw [hkeys]
  exact s.jobs.nodup

/-- A check triggers a job once, or not at all. -/
theorem filter_triggered (hjob : job ∈ s.jobs.values) (now : DateTime) :
    ((s.plans.filter fun p => p.fires u now).map Plan.jobId).filter (· = job.jobId) =
      if (job.enabled && isDue u job.schedule now) = true then [job.jobId] else [] := by
  have hplan : (⟨job.jobId, job.schedule, job.enabled⟩ : Plan) ∈ s.plans :=
    List.mem_map_of_mem (f := fun job : ScheduledJob => Plan.mk _ _ _) hjob
  have hnodup : ((s.plans.filter fun p => p.fires u now).map Plan.jobId).Nodup :=
    (nodup_jobIds s).sublist (List.filter_sublist.map _)
  have hmem : job.jobId ∈ (s.plans.filter fun p => p.fires u now).map Plan.jobId ↔
      (job.enabled && isDue u job.schedule now) = true := by
    constructor
    · intro h
      obtain ⟨p, hp, hid⟩ := List.mem_map.1 h
      obtain ⟨hp, hfires⟩ := List.mem_filter.1 hp
      obtain rfl := List.inj_on_of_nodup_map (nodup_jobIds s) hp hplan hid
      exact hfires
    · intro h
      exact List.mem_map.2 ⟨_, List.mem_filter.2 ⟨hplan, h⟩, rfl⟩
  rw [List.filter_eq, hnodup.count]
  simp only [hmem]
  split <;> rfl

/-- A job is triggered by the checks at which it is due. -/
theorem firings_eq (hjob : job ∈ s.jobs.values) (checks : List Check) :
    s.firings u checks job.jobId =
      (checks.filter fun c => job.enabled && isDue u job.schedule c.now).map Check.now := by
  unfold firings
  rw [answers_check]
  induction checks with
  | nil => rfl
  | cons c checks ih =>
    rw [List.map_cons, List.zip_cons_cons, List.flatMap_cons, ih]
    dsimp only
    rw [filter_triggered hjob, List.filter_cons]
    split <;> rfl

/-! ### Minutes -/

theorem weekday_congr {now now' : DateTime} (h : minuteOf now = minuteOf now') :
    now.weekday = now'.weekday := by
  simp only [minuteOf, Prod.mk.injEq] at h
  obtain ⟨hyear, hmonth, hday, -, -⟩ := h
  unfold DateTime.weekday DateTime.toordinal
  rw [hyear, hmonth, hday]

/-- Whether a schedule is due depends on the minute. -/
theorem isDue_congr (schedule : String) {now now' : DateTime}
    (h : minuteOf now = minuteOf now') : isDue u schedule now = isDue u schedule now' := by
  have hweekday := weekday_congr h
  simp only [minuteOf, Prod.mk.injEq] at h
  obtain ⟨-, hmonth, hday, hhour, hminute⟩ := h
  unfold isDue matchesAll
  rw [hweekday, hmonth, hday, hhour, hminute]

/-- What is no cron schedule is taken for one that is always due. -/
theorem isDue_of_not_isCron {schedule : String} (h : ¬IsCron schedule) (now : DateTime) :
    isDue u schedule now = true := by
  unfold IsCron at h
  push Not at h
  obtain ⟨hfields, halias⟩ := h
  have hlookup : specialSchedules.lookup schedule = none := by
    refine List.lookup_eq_none_iff.2 fun p hp => bne_iff_ne.2 ?_
    rintro rfl
    exact halias (List.mem_map_of_mem hp)
  unfold isDue
  rw [hlookup, Option.getD_none]
  dsimp only
  rw [split_strip]
  split
  · next hsplit =>
    rw [hsplit] at hfields
    exact absurd rfl hfields
  · rfl

/-- An alias is due when what it stands for is. -/
theorem isDue_expand {schedule : String} {e : CronExpression} (h : e.Writes (expand schedule))
    (now : DateTime) : isDue u schedule now = isDue u (expand schedule) now := by
  have hlookup := lookup_specialSchedules h
  unfold isDue
  rw [hlookup, Option.getD_none, expand]

/-- The minutes in which a job is triggered are different ones if no two checks are in a minute in
which it is due. -/
theorem nodup_minutes_iff (p : DateTime → Bool)
    (hp : ∀ now now', minuteOf now = minuteOf now' → p now = p now') (checks : List Check) :
    (((checks.filter fun c => p c.now).map Check.now).map minuteOf).Nodup ↔
      checks.Pairwise fun c c' => minuteOf c.now = minuteOf c'.now → p c.now = false := by
  unfold List.Nodup
  rw [List.map_map, List.pairwise_map, List.pairwise_filter]
  refine List.Pairwise.iff fun c c' => ?_
  rw [Function.comp_apply, Function.comp_apply]
  constructor
  · intro h hminute
    by_contra hdue
    rw [Bool.not_eq_false] at hdue
    exact h hdue ((hp _ _ hminute).symm.trans hdue) hminute
  · intro h hdue _ hminute
    rw [h hminute] at hdue
    cases hdue

/-- What is asked of a job, by its checks. -/
theorem prompt_firings_iff (restricted : List CronItem → Bool) (validInterval : String → Prop)
    (hu : AsciiDecimals u) (hjob : job ∈ s.jobs.values) (checks : List Check) :
    Prompt u restricted validInterval job.schedule (s.firings u checks job.jobId) ↔
      (job.enabled = true →
        (IsCron job.schedule → checks.Pairwise fun c c' =>
          minuteOf c.now = minuteOf c'.now → isDue u job.schedule c.now = false) ∧
        (¬IsCron job.schedule → ¬validInterval job.schedule → checks = [])) := by
  rw [firings_eq hjob]
  cases henabled : job.enabled with
  | false =>
    simp only [Bool.false_and, List.filter_false, List.map_nil]
    refine iff_of_true ⟨fun _ => List.nodup_nil, fun _ _ h => (nomatch h), fun _ _ => rfl⟩ ?_
    exact fun h => nomatch h
  | true =>
    simp only [Bool.true_and, forall_const]
    have hminutes := nodup_minutes_iff (isDue u job.schedule)
      (fun _ _ h => isDue_congr job.schedule h) checks
    constructor
    · intro h
      refine ⟨fun hcron => hminutes.1 (h.once hcron), fun hcron hinterval => ?_⟩
      have hall : checks.filter (fun c => isDue u job.schedule c.now) = checks :=
        List.filter_eq_self.2 fun c _ => isDue_of_not_isCron hcron c.now
      have hnone := h.never hcron hinterval
      rw [hall, List.map_eq_nil_iff] at hnone
      exact hnone
    · rintro ⟨honce, hnever⟩
      refine ⟨fun hcron => hminutes.2 (honce hcron), fun _ now hnow => ?_,
        fun hcron hinterval => ?_⟩
      · obtain ⟨c, hc, rfl⟩ := List.mem_map.1 hnow
        have hdue : isDue u job.schedule c.now = true := (List.mem_filter.1 hc).2
        refine ⟨hdue, fun e he => due_of_isDue restricted hu he ?_⟩
        exact (isDue_expand he c.now).symm.trans hdue
      · rw [hnever hcron hinterval]
        rfl

/-- **When the scheduler is prompt**: every job is triggered at most once a minute and only when it
is due, and never if its schedule means nothing, exactly if no two checks fall into one minute in
which an enabled job is due, and no job with a meaningless schedule is enabled, or nothing is ever
checked. -/
theorem prompt_iff (restricted : List CronItem → Bool) (validInterval : String → Prop)
    (hu : AsciiDecimals u) (s : WorkflowScheduler) (checks : List Check) :
    (∀ job ∈ s.jobs.values,
      Prompt u restricted validInterval job.schedule (s.firings u checks job.jobId)) ↔
        ∀ job ∈ s.jobs.values, job.enabled = true →
          (IsCron job.schedule → checks.Pairwise fun c c' =>
            minuteOf c.now = minuteOf c'.now → isDue u job.schedule c.now = false) ∧
          (¬IsCron job.schedule → ¬validInterval job.schedule → checks = []) :=
  forall₂_congr fun _ hjob => prompt_firings_iff restricted validInterval hu hjob checks

/-! ### Two checks of two jobs -/

/-- An hourly job, and one with a schedule of the kind that `is_due` mentions. -/
def twoJobs : WorkflowScheduler :=
  let (_, s) := new.registerJob "sched_snow_sync" "Hourly reconciliation" "@hourly"
    "wf_snow_cmdb_sync" "tenant_acme" none
  (s.registerJob "sched_pulse" "Health pulse" "every 30s" "wf_win_health" "tenant_acme" none).2

/-- A check at a second of a minute after midnight. -/
def checkAt (minute second : Fin 60) : Check where
  now := ⟨2026, 7, 19, 0, minute, second, 0, some 0, by
    simp [isDateTime, daysInMonth, dayMicroseconds]⟩
  clock _ := ⟨sunday, 0⟩

theorem isCron_hourly : IsCron "@hourly" := Or.inr List.mem_cons_self

/-- One check a minute. -/
theorem prompt_everyMinute :
    Prompt asciiTables unlessStar (· = "every 30s") "@hourly"
        (twoJobs.firings asciiTables [checkAt 0 0, checkAt 1 0] "sched_snow_sync") ∧
      Prompt asciiTables unlessStar (· = "every 30s") "every 30s"
        (twoJobs.firings asciiTables [checkAt 0 0, checkAt 1 0] "sched_pulse") := by
  have htables : AsciiDecimals asciiTables := fun _ _ => rfl
  have hprompt := (prompt_iff unlessStar (· = "every 30s") htables twoJobs
    [checkAt 0 0, checkAt 1 0]).2 fun job hjob _ => ⟨fun _ => ?_, fun hcron hinterval => ?_⟩
  · exact ⟨hprompt _ List.mem_cons_self, hprompt _ (List.mem_cons_of_mem _ List.mem_cons_self)⟩
  · exact List.pairwise_pair.2 fun hminute => absurd hminute (by decide)
  · rcases List.mem_cons.1 hjob with rfl | hjob
    · exact absurd isCron_hourly hcron
    · obtain rfl := List.mem_singleton.1 hjob
      exact absurd rfl hinterval

/-- Two checks in one minute trigger the hourly job twice. -/
theorem not_prompt_twice :
    ¬ ∀ job ∈ twoJobs.jobs.values, Prompt asciiTables unlessStar (· = "every 30s") job.schedule
      (twoJobs.firings asciiTables [checkAt 0 0, checkAt 0 30] job.jobId) := by
  intro h
  have honce := (h _ List.mem_cons_self).once isCron_hourly
  revert honce
  decide +kernel

end Runs

end WorkflowScheduler

end FlowMesh.Scheduler
