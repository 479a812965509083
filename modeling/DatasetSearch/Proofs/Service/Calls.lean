import DatasetSearch.Proofs.Service.History

/-! # A service and its calls

`World` is a running service with the disk around it.  It is called in any order, and between two
calls anything may happen to the disk (`Event`); a call gives a reply and may change the world
(`World.reply?`, `World.step`).  Only rebuilding the index changes what the service says:

* one event keeps `Serves`, which says what the service has an index of and when it has none
  (`Serves.concat_of_not_isRecreate`, `exists_serves_concat_recreate`), and so does a run
  (`exists_serves_after`);
* searches and questions for its health can be left out of a run without a trace
  (`after_filter_isChange`).

`Service.calls` says for every run what the service replies after it. -/

namespace DatasetSearch

/-- A running service and the disk. -/
structure World where
  disk : Disk
  service : Service

/-- What happens to a running service: a call, with the builder that it finds if it has to build, or
a change of the disk by others. -/
inductive Event
  | evaluate (r : Request)
  | stream (r : Request)
  | health
  | recreate (b : Builder)
  | change (d : Disk)

/-- What a call gives. -/
inductive Reply
  | answer (a : Answer)
  | chunks (cs : List Chunk)
  | health (ready : Bool)
  | report (r : RebuildReport)

namespace Event

/-- The index is to be rebuilt. -/
def isRecreate : Event → Bool
  | recreate _ => true
  | _ => false

/-- Neither a search nor a question for the health. -/
def isChange : Event → Bool
  | recreate _ | change _ => true
  | _ => false

end Event

/-- The report that a reply is. -/
def Reply.report? : Reply → Option RebuildReport
  | report r => some r
  | _ => none

/-- An answer without hits has no chunks. -/
theorem Service.stream_of_evaluate_empty [Scorer] [Query.Automata] {service : Service} {r : Request}
    (h : service.evaluate r = .empty) : service.stream r = [] := by
  rw [stream, h]
  unfold Answer.chunks Chunks.toList
  rfl

section

variable [IndexReader]

namespace Service

/-- The documents of a service that starts: those of the build that it makes, or those of the index
that it finds. -/
def StartsWith (s : Settings) (env : Environment) (b : Builder) (d : Disk) (c : Catalog) : Prop :=
  (∃ a, attempts s env b d = [a] ∧ a.Completed c) ∨
    attempts s env b d = [] ∧ Index.catalog? d (s.indexPath env) = some c

theorem exists_startsWith_of_start {s : Settings} {env : Environment} {b : Builder} {d d' : Disk}
    {service : Service} (h : start s env b d = (d', .ok service)) :
    ∃ c, StartsWith s env b d c ∧ service = ⟨s, env, some (.ofCatalog c)⟩ := by
  rcases start_cases s env b d with
    ⟨fault, -, hinvalid, -⟩ | ⟨-, -, hfinish, hattempts⟩ | ⟨-, -, hfinish, hattempts⟩
  · rw [h] at hinvalid
    cases hinvalid
  · rw [h] at hfinish
    obtain ⟨hdisk, ix, hopen, rfl⟩ := finish_eq_ok_iff.1 hfinish.symm
    cases hdisk
    obtain ⟨c, hindex, rfl⟩ := Index.exists_catalog?_of_open? hopen
    exact ⟨c, .inr ⟨hattempts, hindex⟩, rfl⟩
  · rw [h] at hfinish
    obtain ⟨hrebuild, ix, hopen, rfl⟩ := finish_eq_ok_iff.1 hfinish.symm
    obtain ⟨a, c, hattempt, hcompleted, rfl⟩ := Builder.completed_of_rebuild hrebuild hopen
    rw [hattempt] at hattempts
    exact ⟨c, .inl ⟨a, hattempts, hcompleted⟩, rfl⟩

/-- Rebuilding the index leaves a service without one, or with the documents of the build. -/
theorem recreate_eq (service : Service) (b : Builder) (d : Disk) :
    (∃ d' e, service.recreate b d = (d', { service with index? := none }, some e)) ∨
      ∃ d' a c, service.recreateAttempt? b d = some a ∧ a.Completed c ∧
        service.recreate b d = (d', { service with index? := some (.ofCatalog c) }, none) := by
  obtain ⟨d', failure, hrebuild, ⟨e, hfailed⟩ | ⟨ix, rfl, hopen, hrecreate⟩⟩ :=
    service.recreate_cases b d
  · exact .inl ⟨d', e, hfailed⟩
  · obtain ⟨a, c, hattempt, hcompleted, rfl⟩ := Builder.completed_of_rebuild hrebuild hopen
    exact .inr ⟨d', a, c, hattempt, hcompleted, hrecreate⟩

end Service

namespace World

variable (w : World)

/-- The world after an event. -/
def step : Event → World
  | .evaluate _ | .stream _ | .health => w
  | .recreate b =>
    let (d, service, _) := w.service.recreate b w.disk
    ⟨d, service⟩
  | .change d => { w with disk := d }

/-- The world after a run of events. -/
def after (events : List Event) : World := events.foldl step w

theorem after_append (events events' : List Event) :
    w.after (events ++ events') = (w.after events).after events' := List.foldl_append

theorem after_concat (events : List Event) (e : Event) :
    w.after (events ++ [e]) = (w.after events).step e := w.after_append events [e]

/-- Searches and questions for the health leave no trace. -/
theorem after_filter_isChange (events : List Event) :
    w.after (events.filter Event.isChange) = w.after events := by
  induction events generalizing w with
  | nil => rfl
  | cons e es ih =>
      rw [List.filter_cons]
      cases e with
      | evaluate r => exact ih w
      | stream r => exact ih w
      | health => exact ih w
      | recreate b => exact ih (w.step (.recreate b))
      | change d => exact ih (w.step (.change d))

/-! ### What is served -/

/-- The documents of the last successful build: those of the run of the builder when the index was
rebuilt for the last time, or the ones at the beginning if it never was. -/
def LastBuilt (initial : Catalog) (events : List Event) (c : Catalog) : Prop :=
  (∀ e ∈ events, e.isRecreate = false) ∧ c = initial ∨
    ∃ before b after a, events = before ++ .recreate b :: after ∧
      (∀ e ∈ after, e.isRecreate = false) ∧
      (w.after before).service.recreateAttempt? b (w.after before).disk = some a ∧
      a.Completed c

theorem LastBuilt.concat {w : World} {initial : Catalog} {events : List Event} {c : Catalog}
    (h : w.LastBuilt initial events c) {e : Event} (he : e.isRecreate = false) :
    w.LastBuilt initial (events ++ [e]) c := by
  have hlast {after : List Event} (hafter : ∀ e ∈ after, e.isRecreate = false) :
      ∀ e' ∈ after ++ [e], e'.isRecreate = false := by
    intro e' he'
    rcases List.mem_append.1 he' with he' | he'
    · exact hafter e' he'
    · rw [List.mem_singleton.1 he']
      exact he
  rcases h with ⟨hnone, rfl⟩ | ⟨before, b, after, a, rfl, hafter, hattempt, hcompleted⟩
  · exact .inl ⟨hlast hnone, rfl⟩
  · refine .inr ⟨before, b, after ++ [e], a, ?_, hlast hafter, hattempt, hcompleted⟩
    rw [List.append_assoc, List.cons_append]

variable [Scorer] [Query.Automata]

/-- The reply to an event, if it is a call. -/
def reply? : Event → Option Reply
  | .evaluate r => some (.answer (w.service.evaluate r))
  | .stream r => some (.chunks (w.service.stream r))
  | .health => some (.health w.service.isReady)
  | .recreate b => some (.report (.ofResult (w.service.recreate b w.disk).2.2))
  | .change _ => none

/-- The replies of a run of events. -/
def replies (w : World) : List Event → List Reply
  | [] => []
  | e :: es => (w.reply? e).toList ++ replies (w.step e) es

/-- The last report of a run of events on rebuilding the index. -/
def lastReport? (events : List Event) : Option RebuildReport :=
  ((w.replies events).filterMap Reply.report?).getLast?

theorem replies_append (events events' : List Event) :
    w.replies (events ++ events') = w.replies events ++ (w.after events).replies events' := by
  induction events generalizing w with
  | nil => rfl
  | cons e es ih =>
      rw [List.cons_append, replies, replies, ih, List.append_assoc]
      rfl

theorem lastReport?_concat (events : List Event) (e : Event) :
    w.lastReport? (events ++ [e]) =
      (((w.after events).reply? e).bind Reply.report?).or (w.lastReport? events) := by
  unfold lastReport?
  rw [replies_append, List.filterMap_append, List.getLast?_append]
  cases hreply : (w.after events).reply? e with
  | none => simp [replies, hreply]
  | some reply => cases hreport : reply.report? <;> simp [replies, hreply, hreport]

/-- A reply that is no report leaves the last report as it is. -/
theorem lastReport?_concat_of_not_isRecreate {e : Event} (h : e.isRecreate = false)
    (events : List Event) : w.lastReport? (events ++ [e]) = w.lastReport? events := by
  rw [lastReport?_concat]
  cases e with
  | recreate b => cases h
  | evaluate r => rfl
  | stream r => rfl
  | health => rfl
  | change d => rfl

/-- The index of a service after a run: that of the last successful build, if no report or a good
one was the last; none after a bad one. -/
inductive Serves (initial : Catalog) (events : List Event) : Option Index.Opened → Prop
  | built {c : Catalog} : w.LastBuilt initial events c →
      (∀ report ∈ w.lastReport? events, report.success = true) →
      Serves initial events (some (.ofCatalog c))
  | failed {report : RebuildReport} : w.lastReport? events = some report →
      report.success = false → Serves initial events none

variable {w} {initial : Catalog} {events : List Event}

theorem Serves.concat_of_not_isRecreate {ix? : Option Index.Opened}
    (h : w.Serves initial events ix?) {e : Event} (he : e.isRecreate = false) :
    w.Serves initial (events ++ [e]) ix? := by
  have hreport := w.lastReport?_concat_of_not_isRecreate he events
  cases h with
  | built hbuilt hgood => exact .built (hbuilt.concat he) (hreport ▸ hgood)
  | failed hlast hbad => exact .failed (hreport.trans hlast) hbad

/-- What rebuilding the index changes. -/
theorem exists_serves_concat_recreate (b : Builder) :
    ∃ ix?, (w.after (events ++ [.recreate b])).service =
        { (w.after events).service with index? := ix? } ∧
      w.Serves initial (events ++ [.recreate b]) ix? := by
  have hreport (failure : Option RebuildError)
      (h : ((w.after events).service.recreate b (w.after events).disk).2.2 = failure) :
      w.lastReport? (events ++ [.recreate b]) = some (.ofResult failure) := by
    rw [lastReport?_concat, ← h]
    rfl
  rw [after_concat]
  rcases (w.after events).service.recreate_eq b (w.after events).disk with
    ⟨d, e, hrecreate⟩ | ⟨d, a, c, hattempt, hcompleted, hrecreate⟩
  · refine ⟨none, ?_, .failed (hreport (some e) (congrArg (·.2.2) hrecreate)) rfl⟩
    exact congrArg (·.2.1) hrecreate
  · refine ⟨_, congrArg (·.2.1) hrecreate, .built ?_ ?_⟩
    · exact .inr ⟨events, b, [], a, rfl, nofun, hattempt, hcompleted⟩
    · rw [hreport none (congrArg (·.2.2) hrecreate)]
      rintro report ⟨⟩
      rfl

/-- Along any run a service keeps its settings and has the index that it should have. -/
theorem exists_serves_after (h : w.service.index? = some (.ofCatalog initial))
    (events : List Event) : ∃ ix?, (w.after events).service = { w.service with index? := ix? } ∧
      w.Serves initial events ix? := by
  induction events using List.reverseRecOn with
  | nil =>
      refine ⟨w.service.index?, rfl, ?_⟩
      rw [h]
      exact .built (.inl ⟨nofun, rfl⟩) nofun
  | append_singleton events e ih =>
      obtain ⟨ix?, hservice, hserves⟩ := ih
      have hkeep (he : e.isRecreate = false)
          (hsame : ((w.after events).step e).service = (w.after events).service) :
          ∃ ix?, (w.after (events ++ [e])).service = { w.service with index? := ix? } ∧
            w.Serves initial (events ++ [e]) ix? := by
        rw [after_concat, hsame]
        exact ⟨ix?, hservice, hserves.concat_of_not_isRecreate he⟩
      cases e with
      | evaluate r => exact hkeep rfl rfl
      | stream r => exact hkeep rfl rfl
      | health => exact hkeep rfl rfl
      | change d => exact hkeep rfl rfl
      | recreate b =>
          obtain ⟨ix?', hservice', hserves'⟩ := exists_serves_concat_recreate b
          rw [hservice] at hservice'
          exact ⟨ix?', hservice', hserves'⟩

end World

namespace Service

/-- After any run of calls a service that was started is ready if the index was never rebuilt or the
last report on that is a good one.  While it is not ready, all answers are empty; while it is, they
are those of an index of the documents of the last successful build, whatever became of the disk.
Searches and questions for its health make no difference to any later reply. -/
theorem calls [Scorer] [Query.Automata] {s : Settings} {env : Environment} {b : Builder}
    {d d' : Disk} {service : Service}
    (hstart : start s env b d = (d', .ok service)) (events : List Event) :
    let w : World := ⟨d', service⟩
    let w' := w.after events
    (w'.service.isReady = true ↔ ∀ report ∈ w.lastReport? events, report.success = true) ∧
      (w'.service.isReady = false → ∀ r, w'.reply? (.evaluate r) = some (.answer .empty) ∧
        w'.reply? (.stream r) = some (.chunks [])) ∧
      (w'.service.isReady = true → ∃ initial last, StartsWith s env b d initial ∧
        w.LastBuilt initial events last ∧ ∀ r,
          let a := (Index.ofBatches [last.documents]).search r s.minScore s.maxResults
          w'.reply? (.evaluate r) = some (.answer a) ∧
            w'.reply? (.stream r) = some (.chunks (a.chunks s.chunkSize))) ∧
      ∀ events', events'.filter Event.isChange = events.filter Event.isChange → ∀ later,
        w.replies (events' ++ later) = w.replies events' ++ w'.replies later := by
  intro w w'
  obtain ⟨initial, hinitial, rfl⟩ := exists_startsWith_of_start hstart
  obtain ⟨ix?, hservice, hserves⟩ := World.exists_serves_after (w := w) rfl events
  have hunseen : ∀ events', events'.filter Event.isChange = events.filter Event.isChange →
      ∀ later, w.replies (events' ++ later) = w.replies events' ++ w'.replies later := by
    intro events' hsame later
    have hafter : w.after events' = w' := by
      rw [← w.after_filter_isChange events', hsame, w.after_filter_isChange events]
    rw [w.replies_append, hafter]
  have hw : w'.service = ⟨s, env, ix?⟩ := hservice
  cases hserves with
  | built hbuilt hgood =>
      refine ⟨iff_of_true (by rw [hw]; rfl) hgood, fun hnot => ?_, fun _ => ?_, hunseen⟩
      · rw [hw] at hnot
        cases hnot
      · refine ⟨initial, _, hinitial, hbuilt, fun r => ?_⟩
        rw [World.reply?, World.reply?, hw]
        exact ⟨rfl, rfl⟩
  | failed hlast hbad =>
      refine ⟨iff_of_false (by rw [hw]; exact Bool.false_ne_true) fun hgood => ?_, fun _ r => ?_,
        fun hready => ?_, hunseen⟩
      · rw [hgood _ hlast] at hbad
        cases hbad
      · rw [World.reply?, World.reply?, hw]
        exact ⟨rfl, congrArg (some <| Reply.chunks ·) (stream_of_evaluate_empty rfl)⟩
      · rw [hw] at hready
        cases hready

end Service

end

namespace Service

set_option maxRecDepth 4000 in
/-- A service that is started on an index of one record is asked for its health and stays
ready; if it fails to rebuild its index, it has none. -/
theorem calls_of_record :
    let s : Settings := { dataDir := ['/'], collectionName := ['c'], croissantDir := ['/', 's'],
                          indexDir := ['/', 'i'] }
    let c : Catalog := ⟨[⟨0, ⟨['b'], [], [], [], [], []⟩⟩], by decide, by decide⟩
    let service : Service := ⟨s, {}, some (.ofCatalog c)⟩
    ∃ d, start s {} .croissant d = (d, .ok service) ∧
      let w : World := ⟨d, service⟩
      (w.after [.health]).service.isReady = true ∧
        (∃ initial last, StartsWith s {} .croissant d initial ∧
          w.LastBuilt initial [.health] last ∧ ∀ r, w.reply? (.evaluate r) =
            some (.answer ((Index.ofBatches [last.documents]).search r s.minScore s.maxResults))) ∧
        (w.after [.recreate .unavailable]).service.isReady = false ∧
        ∀ r, (w.after [.recreate .unavailable]).reply? (.stream r) = some (.chunks []) := by
  intro s c service
  have hindex : s.indexPath {} = ['/', 'i'] := by cbv
  obtain ⟨d, -, hfile, hopen, -, hclear⟩ := History.exists_build_of_record
  rw [← hindex] at hfile hopen hclear
  have hstart : start s {} .croissant d = (d, .ok service) := by
    rw [(start_of_isFile .croissant rfl hfile).1, finish, hopen]
  have hfailed :
      (service.recreate .unavailable d).2.1 = { service with index? := none } := by
    have hrebuild : Builder.unavailable.rebuild d (s.indexPath {}) (s.croissantPath {}) =
        (_, some (.build .unavailable)) := Builder.rebuild_of_build hclear rfl
    unfold recreate
    dsimp only
    rw [hrebuild]
  have hnone : (World.after ⟨d, service⟩ [.recreate .unavailable]).service.isReady = false := by
    show (service.recreate .unavailable d).2.1.isReady = false
    rw [hfailed]
    rfl
  obtain ⟨-, -, hserved, -⟩ := calls hstart [.health]
  obtain ⟨-, hempty, -⟩ := calls hstart [.recreate .unavailable]
  obtain ⟨initial, last, hinitial, hlast, hsearch⟩ := hserved rfl
  exact ⟨d, hstart, rfl, ⟨initial, last, hinitial, hlast, fun r => (hsearch r).1⟩, hnone,
    fun r => (hempty hnone r).2⟩

end Service

end DatasetSearch
