import Mathlib.Data.List.Induction
import SuiteAtlas.Run

namespace SuiteAtlas

namespace Keyed

variable {α β : Type} [DecidableEq α]

theorem lookup_cons (key k : α) (value : β) (rest : List (α × β)) :
    ((key, value) :: rest).lookup k = if k = key then some value else rest.lookup k := by
  rw [List.lookup_cons]
  by_cases h : k = key
  · rw [beq_iff_eq.2 h, if_pos h]
  · rw [beq_eq_false_iff_ne.2 h, if_neg h]

theorem lookup_put (entries : List (α × β)) (key k : α) (value : β) :
    (put entries key value).lookup k = if k = key then some value else entries.lookup k := by
  induction entries with
  | nil => rw [put, lookup_cons]
  | cons entry rest ih =>
    obtain ⟨k', v⟩ := entry
    by_cases hk' : k' = key
    · rw [put, if_pos hk', lookup_cons, lookup_cons, hk']
      split <;> rfl
    · rw [put, if_neg hk', lookup_cons, lookup_cons, ih]
      by_cases h : k = k'
      · rw [if_pos h, if_pos h, if_neg (h ▸ hk')]
      · rw [if_neg h, if_neg h]

theorem lookup_ofList (settings : List (α × β)) (k : α) :
    (ofList settings).lookup k =
      (settings.reverse.find? fun setting => setting.1 == k).map Prod.snd := by
  induction settings using List.reverseRecOn with
  | nil => rfl
  | append_singleton settings setting ih =>
    rw [ofList, List.foldl_append, List.foldl_cons, List.foldl_nil, lookup_put,
      List.reverse_append, List.reverse_singleton, List.singleton_append, List.find?_cons]
    by_cases h : k = setting.1
    · rw [if_pos h, beq_iff_eq.2 h.symm]
      rfl
    · rw [if_neg h, beq_eq_false_iff_ne.2 (Ne.symm h)]
      exact ih

end Keyed

namespace Run

variable {run : Run} {id : String} {event : RunEvent} {before after : List RunEvent}

theorem views_of_log {run' : Run} {events : List RunEvent}
    (h : run'.log = run.log ++ events.map RunEntry.event) :
    run'.events = run.events ++ events ∧ run'.output = run.output := by
  have hevents : (events.map RunEntry.event).filterMap RunEntry.event? = events := by
    rw [List.filterMap_map]
    exact List.filterMap_some
  have htexts : (events.map RunEntry.event).filterMap RunEntry.text? = [] := by
    rw [List.filterMap_map]
    exact List.filterMap_eq_nil_iff.2 fun _ _ => rfl
  rw [Run.events, Run.output, h, List.filterMap_append, List.filterMap_append, hevents, htexts,
    List.append_nil]
  exact ⟨rfl, rfl⟩

theorem lookup_lastEvents (run : Run) (id : String) :
    run.lastEvents.lookup id = run.events.reverse.find? fun event => event.nodeId == id := by
  rw [lastEvents, Keyed.lookup_ofList, ← List.map_reverse, List.find?_map, Option.map_map]
  exact Option.map_id'

/-- Each part of a record says what the last event of a node is, or leaves it as it was. -/
theorem lookup_lastEvents_flatMap {α : Type} {run' : Run} {parts : List α}
    {events : α → List RunEvent} (hrun : run'.events = run.events ++ parts.flatMap events)
    (id : String) :
    run'.lastEvents.lookup id = parts.foldl
      (fun last part => ((events part).reverse.find? fun event => event.nodeId == id).or last)
      (run.lastEvents.lookup id) := by
  rw [lookup_lastEvents, lookup_lastEvents, hrun]
  clear hrun
  induction parts using List.reverseRecOn with
  | nil => rw [List.flatMap_nil, List.append_nil, List.foldl_nil]
  | append_singleton parts part ih =>
    rw [List.flatMap_append, List.flatMap_singleton, ← List.append_assoc, List.reverse_append,
      List.find?_append, ih, List.foldl_append, List.foldl_cons, List.foldl_nil]

theorem lookup_lastEvents_of_append (hrun : run.events = before ++ event :: after)
    (hafter : ∀ e ∈ after, e.nodeId ≠ event.nodeId) :
    run.lastEvents.lookup event.nodeId = some event := by
  have hnone : after.reverse.find? (fun e => e.nodeId == event.nodeId) = none := by
    rw [List.find?_eq_none]
    intro e he
    rw [beq_iff_eq]
    exact hafter e (List.mem_reverse.1 he)
  rw [lookup_lastEvents, hrun, List.reverse_append, List.reverse_cons, List.append_assoc,
    List.find?_append, hnone, Option.none_or, List.singleton_append, List.find?_cons,
    beq_self_eq_true]

@[simp] theorem events_print (run : Run) (text : String) : (run.print text).events = run.events :=
  (events_add run _).trans (List.append_nil _)

@[simp] theorem output_print (run : Run) (text : String) :
    (run.print text).output = run.output ++ [text] :=
  output_add run _

end Run

end SuiteAtlas
