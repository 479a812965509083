import DatasetSearch.Proofs.Answer.Chunks
import Mathlib.Data.List.Basic

/-! # Asking for highlights

An answer is put together by asking for the highlights of its hits, one call after the other.  Who
is asked may keep a state and may fail (`Ask`).  To say which calls are made, the calls are written
down as they happen (`Ask.recorded`); this changes nothing else.

* `Led` is a row of calls, each made in the state that the one before it left.
* `Asked` says what may come of a list of hits: either every hit was asked about in order and the
  answer has them all, or the calls end with the first one that fails and so does the answer.  One
  more hit in front keeps this (`Asked.cons`, `asked_of_failed`), and induction over the hits
  gives it for whole answers (`exists_asked`). -/

namespace DatasetSearch

/-- Who is asked for the highlights of a hit, with a state of type `σ` and errors of type `ε`. -/
abbrev Ask (σ ε : Type) := Hit → ExceptT ε (StateM σ) (Option FieldHighlights)

/-- A call: the hit that was asked about and what was replied. -/
structure Call (ε : Type) where
  hit : Hit
  reply : Except ε (Option FieldHighlights)

variable {σ ε : Type}

namespace Call

/-- The call did not fail. -/
def IsAnswered (call : Call ε) : Prop := ∃ fields, call.reply = .ok fields

/-- The highlights that the call gives an id; none are as good as none of any field. -/
def fieldsFor? (id : Int) (call : Call ε) : Option FieldHighlights :=
  match call.reply with
  | .ok (some fields) => if call.hit.id = id ∧ fields.isEmpty = false then some fields else none
  | _ => none

end Call

namespace Ask

/-- Writes every call down. -/
def recorded (ask : Ask σ ε) : Ask (σ × List (Call ε)) ε := fun hit state =>
  let (reply, s) := ask hit state.1
  (reply, (s, state.2 ++ [⟨hit, reply⟩]))

/-- The calls lead from one state to the other, each one made in the state that the one before it
left. -/
inductive Led (ask : Ask σ ε) : σ → List (Call ε) → σ → Prop
  | nil (s : σ) : Led ask s [] s
  | cons {s middle s' : σ} {hit : Hit} {reply : Except ε (Option FieldHighlights)}
      {calls : List (Call ε)} : ask hit s = (reply, middle) → Led ask middle calls s' →
      Led ask s (⟨hit, reply⟩ :: calls) s'

end Ask

namespace Answer

/-- What may come of asking about the hits, for an answer that has some already. -/
inductive Asked (a : Answer) (hits : List Hit) : List (Call ε) → Except ε Answer → Prop
  | complete {calls : List (Call ε)} {b : Answer} : calls.map Call.hit = hits →
      (∀ call ∈ calls, call.IsAnswered) → b.ids = a.ids ++ hits.map Hit.id →
      b.scores = a.scores ++ hits.map Hit.score → b.total = a.total →
      (∀ id, b.highlights.get? id =
        (calls.filterMap (Call.fieldsFor? id)).getLast?.or (a.highlights.get? id)) →
      Asked a hits calls (.ok b)
  | failed (done : List (Call ε)) {hit : Hit} {rest : List Hit} {error : ε} :
      hits = done.map Call.hit ++ hit :: rest → (∀ call ∈ done, call.IsAnswered) →
      Asked a hits (done ++ [⟨hit, .error error⟩]) (.error error)

variable {a : Answer} {hit : Hit} {hits : List Hit} {calls : List (Call ε)}
  {outcome : Except ε Answer}

theorem asked_nil (a : Answer) : Asked a [] ([] : List (Call ε)) (.ok a) :=
  .complete rfl (fun _ hcall => absurd hcall List.not_mem_nil) (by simp) (by simp) rfl (by simp)

/-- A call that is not answered is the last one. -/
theorem asked_of_failed (a : Answer) (hit : Hit) (hits : List Hit) (error : ε) :
    Asked a (hit :: hits) [⟨hit, .error error⟩] (.error error) :=
  .failed [] rfl fun _ hcall => absurd hcall List.not_mem_nil

/-- The highlights of the last call that gives an id some are those of the id. -/
theorem get?_push_or (a : Answer) (hit : Hit) (fields : Option FieldHighlights)
    (calls : List (Call ε)) (id : Int) :
    (calls.filterMap (Call.fieldsFor? id)).getLast?.or
        ((a.push hit.id hit.score fields).highlights.get? id) =
      ((⟨hit, .ok fields⟩ :: calls).filterMap (Call.fieldsFor? id)).getLast?.or
        (a.highlights.get? id) := by
  rw [get?_push, List.filterMap_cons]
  cases fields with
  | none => simp [Call.fieldsFor?]
  | some fields =>
      by_cases hid : hit.id = id
      · by_cases hempty : fields.isEmpty = true
        · simp [Call.fieldsFor?, Option.filter, hid, hempty]
        · simp [Call.fieldsFor?, Option.filter, hid, hempty, List.getLast?_cons]
      · simp [Call.fieldsFor?, hid, Ne.symm hid]

/-- One more hit in front, about which the call was answered. -/
theorem Asked.cons {fields : Option FieldHighlights}
    (h : Asked (a.push hit.id hit.score fields) hits calls outcome) :
    Asked a (hit :: hits) (⟨hit, .ok fields⟩ :: calls) outcome := by
  cases h with
  | complete hcalls hanswered hids hscores htotal hhighlights =>
      refine .complete ?_ ?_ ?_ ?_ htotal fun id => ?_
      · simp [hcalls]
      · intro call hcall
        rcases List.mem_cons.1 hcall with rfl | hcall
        · exact ⟨fields, rfl⟩
        · exact hanswered call hcall
      · simp [hids, push]
      · simp [hscores, push]
      · rw [hhighlights, get?_push_or]
  | @failed done last rest error hhits hanswered =>
      rw [hhits, ← List.cons_append]
      refine .failed (⟨hit, .ok fields⟩ :: done) rfl ?_
      intro call hcall
      rcases List.mem_cons.1 hcall with rfl | hcall
      · exact ⟨fields, rfl⟩
      · exact hanswered call hcall

theorem run_pushAll_cons {ask : Ask σ ε} {s middle : σ} {fields : Option FieldHighlights}
    (h : ask hit s = (.ok fields, middle)) (a : Answer) (hits : List Hit) :
    (pushAll ask a (hit :: hits)).run s =
      (pushAll ask (a.push hit.id hit.score fields) hits).run middle := by
  show StateT.bind (ask hit) (ExceptT.bindCont _) s = _
  unfold StateT.bind
  rw [h]
  rfl

theorem run_pushAll_failed {ask : Ask σ ε} {s middle : σ} {error : ε}
    (h : ask hit s = (.error error, middle)) (a : Answer) (hits : List Hit) :
    (pushAll ask a (hit :: hits)).run s = (.error error, middle) := by
  show StateT.bind (ask hit) (ExceptT.bindCont _) s = _
  unfold StateT.bind
  rw [h]
  rfl

/-- Writing the calls down changes neither what comes of them nor the state, and it writes down
calls as `Led` and `Asked` say. -/
theorem exists_asked (ask : Ask σ ε) (a : Answer) (hits : List Hit) (s : σ)
    (past : List (Call ε)) :
    ∃ outcome s' calls, (pushAll ask a hits).run s = (outcome, s') ∧
      (pushAll ask.recorded a hits).run (s, past) = (outcome, (s', past ++ calls)) ∧
      ask.Led s calls s' ∧ Asked a hits calls outcome := by
  induction hits generalizing a s past with
  | nil => exact ⟨.ok a, s, [], rfl, by rw [List.append_nil]; rfl, .nil s, asked_nil a⟩
  | cons hit hits ih =>
      obtain ⟨reply, middle, hreply⟩ : ∃ reply middle, ask hit s = (reply, middle) := ⟨_, _, rfl⟩
      have hrecorded : ask.recorded hit (s, past) = (reply, (middle, past ++ [⟨hit, reply⟩])) := by
        unfold Ask.recorded
        rw [hreply]
      cases reply with
      | error error =>
          refine ⟨.error error, middle, [⟨hit, .error error⟩], run_pushAll_failed hreply a hits,
            run_pushAll_failed hrecorded a hits, .cons hreply (.nil middle), ?_⟩
          exact asked_of_failed a hit hits error
      | ok fields =>
          obtain ⟨outcome, s', calls, hrun, hwritten, hled, hasked⟩ :=
            ih (a.push hit.id hit.score fields) middle (past ++ [⟨hit, .ok fields⟩])
          refine ⟨outcome, s', ⟨hit, .ok fields⟩ :: calls, ?_, ?_, .cons hreply hled, hasked.cons⟩
          · rw [run_pushAll_cons hreply, hrun]
          · rw [run_pushAll_cons hrecorded, hwritten, List.append_assoc]
            rfl

/-- Whoever is asked for highlights, in whatever state, an answer is put together like this: the
hits that reach the least score are asked about in order, once each, until a call fails.  If one
fails, then that error is all there is.  If none does, the answer has these hits, counts all that
were found, and highlights each id with what the last call gave that gave it some. -/
theorem ofFound_asks (ask : Ask σ ε) (found : Found) (least : Score) (s : σ) :
    let survivors := found.hits.filter fun hit => hit.score.reaches least
    ∃ outcome s' calls, (ofFound found least ask).run s = (outcome, s') ∧
      (ofFound found least ask.recorded).run (s, []) = (outcome, (s', calls)) ∧
      ask.Led s calls s' ∧
      ((∃ done hit rest error, survivors = done.map Call.hit ++ hit :: rest ∧
          (∀ call ∈ done, call.IsAnswered) ∧ calls = done ++ [⟨hit, .error error⟩] ∧
          outcome = .error error) ∨
        calls.map Call.hit = survivors ∧ (∀ call ∈ calls, call.IsAnswered) ∧
          ∃ a, outcome = .ok a ∧ a.ids = survivors.map Hit.id ∧
            a.scores = survivors.map Hit.score ∧ a.total = found.total ∧
            ∀ id, a.highlights.get? id =
              (calls.filterMap (Call.fieldsFor? id)).getLast?) := by
  intro survivors
  obtain ⟨outcome, s', calls, hrun, hwritten, hled, hasked⟩ :=
    exists_asked ask { total := found.total } survivors s []
  refine ⟨outcome, s', calls, hrun, hwritten, hled, ?_⟩
  cases hasked with
  | complete hcalls hanswered hids hscores htotal hhighlights =>
      refine .inr ⟨hcalls, hanswered, _, rfl, hids, hscores, htotal, fun id => ?_⟩
      exact (hhighlights id).trans (Option.or_none)
  | failed done hhits hanswered => exact .inl ⟨_, _, _, _, hhits, hanswered, rfl, rfl⟩

end Answer

end DatasetSearch
