import Mathlib.Data.List.DropRight
import Reconciliation.Proofs.Digits
import Reconciliation.Proofs.Step
import Reconciliation.Proofs.TokenCache
import Reconciliation.Remote.DirectorClient

/-! A change is answered at once, or by the name of a task that is then looked at. From a session
on, the looks are a sequence, with a pause after each. The wait ends with the first look that comes
to something, so all that a change can end with is read off its response and these looks. -/
namespace Reconciliation

namespace Text

variable {mark cs before after : List Char}

theorem eq_of_splitAt (h : splitAt mark cs = some (before, after)) :
    cs = before ++ mark ++ after := by
  induction cs generalizing before with
  | nil =>
    rw [splitAt] at h
    split at h
    · next hmark =>
      cases h
      rw [List.isEmpty_iff.1 hmark]
      rfl
    · cases h
  | cons c cs ih =>
    rw [splitAt] at h
    split at h
    · next hmark =>
      cases h
      obtain ⟨rest, hrest⟩ := List.isPrefixOf_iff_prefix.1 hmark
      rw [← hrest]
      simp
    · obtain ⟨⟨before', after'⟩, hsplit, heq⟩ := Option.map_eq_some_iff.1 h
      cases heq
      rw [ih hsplit]
      rfl

/-- The mark cannot begin where its first character does not stand. -/
theorem splitAt_append {m : Char} (h : m ∉ before) (mark after : List Char) :
    splitAt (m :: mark) (before ++ (m :: mark) ++ after) = some (before, after) := by
  induction before with
  | nil => simp [splitAt]
  | cons c before ih =>
    obtain ⟨hne, hrest⟩ := not_or.1 (List.mem_cons.not.1 h)
    have hnot : (m :: mark).isPrefixOf (c :: (before ++ (m :: mark) ++ after)) = false := by
      simp [List.isPrefixOf, hne]
    rw [List.cons_append, List.cons_append, splitAt, hnot, ih hrest]
    rfl

theorem eq_of_splitAtLast (h : splitAtLast mark cs = some (before, after)) :
    cs = before ++ mark ++ after := by
  obtain ⟨⟨after', before'⟩, hsplit, heq⟩ := Option.map_eq_some_iff.1 h
  cases heq
  rw [← List.reverse_inj, eq_of_splitAt hsplit]
  simp

theorem splitAtLast_append {m : Char} (h : m ∉ after) (before mark : List Char) :
    splitAtLast (mark ++ [m]) (before ++ (mark ++ [m]) ++ after) = some (before, after) := by
  have hreverse : (before ++ (mark ++ [m]) ++ after).reverse =
      after.reverse ++ (m :: mark.reverse) ++ before.reverse := by simp
  have hmark : (mark ++ [m]).reverse = m :: mark.reverse := by simp
  rw [splitAtLast, hreverse, hmark, splitAt_append (by simpa using h)]
  simp

end Text

namespace DirectorTask

/-- Up to slashes at its end, the location ends in `/tasks/` and the number. -/
def NamedBy (location : String) (id : Nat) : Prop :=
  ∃ before numeral slashes,
    location.toList = before ++ "/tasks/".toList ++ numeral ++ List.replicate slashes '/' ∧
    Text.IsNumeral numeral id ∧ id < UInt64.size

theorem slash_not_mem_of_isNumeral {cs : List Char} {n : Nat} (h : Text.IsNumeral cs n) :
    '/' ∉ cs := by
  obtain ⟨ds, hcs, -, hdigits, -⟩ := h
  have hds : '/' ∉ ds := fun hmem => by cases hdigits '/' hmem
  rcases hcs with rfl | rfl
  · exact hds
  · exact fun hmem => hds ((List.mem_cons.1 hmem).resolve_left (by decide))

/-- The slashes at the end of a text are all that is trimmed off. -/
theorem trimmed_append {cs : List Char} (h : ∀ hcs : cs ≠ [], cs.getLast hcs ≠ '/')
    (slashes : Nat) :
    ((cs ++ List.replicate slashes '/').reverse.dropWhile (· = '/')).reverse = cs := by
  rw [List.reverse_append, List.reverse_replicate,
    List.dropWhile_append_of_pos fun c hc => by simp [List.eq_of_mem_replicate hc]]
  exact List.rdropWhile_eq_self_iff.2 fun hcs => by simpa using h hcs

theorem exists_trimmed (cs : List Char) : ∃ slashes,
    cs = (cs.reverse.dropWhile (· = '/')).reverse ++ List.replicate slashes '/' := by
  have hslashes : cs.rtakeWhile (· = '/') =
      List.replicate (cs.rtakeWhile (· = '/')).length '/' :=
    List.eq_replicate_iff.2 ⟨rfl, fun c hc => by simpa using List.mem_rtakeWhile_imp hc⟩
  refine ⟨(cs.rtakeWhile (· = '/')).length, ?_⟩
  rw [← hslashes]
  exact List.rdropWhile_append_rtakeWhile.symm

/-- A location is read by its last `/tasks/`. -/
theorem idAt?_eq_some_iff {location : String} {id : Nat} :
    idAt? location = some id ↔ NamedBy location id := by
  constructor
  · intro h
    obtain ⟨⟨before, numeral⟩, hsplit, hid⟩ := Option.bind_eq_some_iff.1 h
    obtain ⟨slashes, hslashes⟩ := exists_trimmed location.toList
    rw [Text.eq_of_splitAtLast hsplit] at hslashes
    obtain ⟨hnumeral, hlt⟩ := Text.naturalBelow?_eq_some_iff.1 hid
    exact ⟨before, numeral, slashes, hslashes, hnumeral, hlt⟩
  · rintro ⟨before, numeral, slashes, hlocation, hnumeral, hlt⟩
    have hslash := slash_not_mem_of_isNumeral hnumeral
    have hlast : ∀ hcs : before ++ "/tasks/".toList ++ numeral ≠ [],
        (before ++ "/tasks/".toList ++ numeral).getLast hcs ≠ '/' := by
      intro hcs heq
      rw [List.getLast_append_of_ne_nil _ hnumeral.ne_nil] at heq
      exact hslash (heq ▸ List.getLast_mem hnumeral.ne_nil)
    have hsplit : Text.splitAtLast "/tasks/".toList (before ++ "/tasks/".toList ++ numeral) =
        some (before, numeral) := Text.splitAtLast_append hslash before "/tasks".toList
    rw [idAt?, hlocation, trimmed_append hlast, hsplit]
    exact Text.naturalBelow?_eq_some_iff.2 ⟨hnumeral, hlt⟩

end DirectorTask

/-- The failures that a task has, not a request. -/
def RemoteError.IsOfTask : RemoteError → Prop
  | .task .. | .taskTimeout .. => True
  | _ => False

section Requests

variable {ν : Type} [Network ν] {e : IdentityEndpoint} {failure : RemoteError}

namespace Session

variable {s t : Session ν}

end Session

end Requests

namespace DirectorClient

variable {ν : Type} [Network ν]

/-- The response redirects to a task: its location, read as a text, names one. -/
def NamesTask (r : Http.Response) (id : Nat) : Prop :=
  r.isRedirection = true ∧
    ∃ location, r.visibleLocation = some location ∧ DirectorTask.NamedBy location id

section Completion

variable {deletes : Bool} {url : String} {r : Http.Response} {id : Nat}

theorem idAt?_visibleLocation_eq_some_iff :
    DirectorTask.idAt? (r.visibleLocation.getD "") = some id ↔
      ∃ location, r.visibleLocation = some location ∧ DirectorTask.NamedBy location id := by
  cases r.visibleLocation with
  | none =>
    have hnone : DirectorTask.idAt? "" = none := rfl
    simp [hnone]
  | some location => simp [DirectorTask.idAt?_eq_some_iff]

theorem not_redirection_of_done (h : r.isSuccess = true ∨ r.status = 404) :
    r.isRedirection = false := by
  simp only [Http.Response.isSuccess, Bool.and_eq_true, decide_eq_true_eq] at h
  simp only [Http.Response.isRedirection, Bool.and_eq_false_iff, decide_eq_false_iff_not]
  omega

theorem completion_of_redirection (h : r.isRedirection = true) (deletes : Bool) (url : String) :
    ∃ e : RemoteError, ¬e.IsOfTask ∧ completion deletes url r =
      (DirectorTask.idAt? (r.visibleLocation.getD "")).elim (.failed e) .task := by
  have hstatus : r.status ≠ 404 := fun heq => by
    rw [not_redirection_of_done (.inr heq)] at h
    cases h
  refine ⟨.protocol ("Redirect from '" ++ url ++ "' does not name a task: '" ++
    r.visibleLocation.getD "" ++ "'"), not_false, ?_⟩
  rw [completion, if_neg (by simp [hstatus]), if_pos h]
  dsimp only
  cases DirectorTask.idAt? (r.visibleLocation.getD "") <;> rfl

theorem completion_of_not_redirection (h : r.isRedirection = false) (deletes : Bool)
    (url : String) : completion deletes url r =
      if r.isSuccess = true ∨ r.status = 404 ∧ deletes = true then .done
      else .failed (r.failure service url) := by
  rw [completion, h]
  by_cases hmissing : r.status = 404 ∧ deletes = true
  · simp [hmissing]
  · rw [if_neg (by simpa [and_comm] using hmissing)]
    simp [hmissing]

theorem completion_eq_task_iff : completion deletes url r = .task id ↔ NamesTask r id := by
  rw [NamesTask]
  cases hredirect : r.isRedirection with
  | false =>
    rw [completion_of_not_redirection hredirect]
    split <;> simp
  | true =>
    obtain ⟨e, -, he⟩ := completion_of_redirection hredirect deletes url
    rw [he, ← idAt?_visibleLocation_eq_some_iff]
    cases DirectorTask.idAt? (r.visibleLocation.getD "") with
    | none => simp
    | some id' => simp

end Completion

/-- The looks at a task from a session on: the answer to each, and the session after it. -/
def looks (c : DirectorClient) (id : Nat) (started : Instant) (s : Session ν) :
    Nat → Except RemoteError (DirectorTask × Nat) × Session ν
  | 0 => c.look id started s
  | n + 1 => c.look id started ((c.looks id started s n).2.paused c.pollInterval)

/-- The answer shows a task that has neither ended nor used up the time for it. -/
def Underway (c : DirectorClient) (answer : Except RemoteError (DirectorTask × Nat)) : Prop :=
  ∃ task waited, answer = .ok (task, waited) ∧
    task.state ∈ ["queued", "processing", "cancelling"] ∧
    ∀ seconds, c.taskTimeout = some seconds → waited < seconds * DirectorTask.nanosPerSecond

/-- How an answer ends the wait. -/
inductive Settles (c : DirectorClient) :
    Except RemoteError (DirectorTask × Nat) → Except RemoteError Unit → Prop where
  | done {task : DirectorTask} {waited : Nat} (hstate : task.state = "done") :
      Settles c (.ok (task, waited)) (.ok ())
  | overdue {task : DirectorTask} {waited seconds : Nat}
      (hstate : task.state ∈ ["queued", "processing", "cancelling"])
      (hlimit : c.taskTimeout = some seconds)
      (hwaited : seconds * DirectorTask.nanosPerSecond ≤ waited) :
      Settles c (.ok (task, waited))
        (.error (.taskTimeout task.id task.state (waited / DirectorTask.nanosPerSecond)))
  | ended {task : DirectorTask} {waited : Nat}
      (hstate : task.state ∉ ["done", "queued", "processing", "cancelling"]) :
      Settles c (.ok (task, waited)) (.error (.task task.id task.state (task.result.getD "")))
  | unreadable (e : RemoteError) : Settles c (.error e) (.error e)

variable {c : DirectorClient} {id n : Nat} {started : Instant} {s s' : Session ν}
  {answer : Except RemoteError (DirectorTask × Nat)} {outcome : Except RemoteError Unit}

theorem isOverdue_iff {limit : Option Nat} {waited : Nat} :
    DirectorTask.isOverdue limit waited = true ↔
      ∃ seconds, limit = some seconds ∧ seconds * DirectorTask.nanosPerSecond ≤ waited := by
  rw [DirectorTask.isOverdue, Option.any_eq_true]
  exact exists_congr fun seconds => and_congr_right fun _ => decide_eq_true_iff

theorem isPending_iff {task : DirectorTask} :
    task.isPending = true ↔ task.state ∈ ["queued", "processing", "cancelling"] :=
  List.contains_iff_mem

theorem Underway.verdict? (h : c.Underway answer) : c.verdict? answer = none := by
  obtain ⟨task, waited, rfl, hstate, hlimit⟩ := h
  have hdone : task.state ≠ "done" := fun hdone => by simp [hdone] at hstate
  have hoverdue : ¬DirectorTask.isOverdue c.taskTimeout waited = true := fun hoverdue => by
    obtain ⟨seconds, hseconds, hwaited⟩ := isOverdue_iff.1 hoverdue
    exact absurd (hlimit seconds hseconds) (not_lt_of_ge hwaited)
  rw [DirectorClient.verdict?, DirectorTask.outcome?, if_neg hdone,
    if_pos (isPending_iff.2 hstate), if_neg hoverdue]

theorem Settles.verdict? (h : c.Settles answer outcome) : c.verdict? answer = some outcome := by
  cases h with
  | done hstate => rw [DirectorClient.verdict?, DirectorTask.outcome?, if_pos hstate]
  | @overdue task waited seconds hstate hlimit hwaited =>
    have hdone : task.state ≠ "done" := fun hdone => by simp [hdone] at hstate
    rw [DirectorClient.verdict?, DirectorTask.outcome?, if_neg hdone,
      if_pos (isPending_iff.2 hstate), if_pos (isOverdue_iff.2 ⟨seconds, hlimit, hwaited⟩)]
    rfl
  | @ended task waited hstate =>
    obtain ⟨hdone, hpending⟩ := not_or.1 (List.mem_cons.not.1 hstate)
    rw [DirectorClient.verdict?, DirectorTask.outcome?, if_neg hdone,
      if_neg (isPending_iff.not.2 hpending)]
  | unreadable e => rfl

variable {method : Http.Method} {path : String} {dress : Http.Request → Http.Request}
  {s₀ : Session ν} {r : Http.Response}

theorem NamesTask.unique {id' : Nat} (h : NamesTask r id) (h' : NamesTask r id') : id' = id := by
  have hcompletion : completion false "" r = .task id := completion_eq_task_iff.2 h
  rw [completion_eq_task_iff.2 h'] at hcompletion
  cases hcompletion
  rfl

namespace Small

def client : DirectorClient where
  endpoint := ⟨"http://director.test", "", ⟨"http://uaa.test", "", "client", "s3cr3t"⟩⟩

end Small

end DirectorClient

end Reconciliation
