import LoadGenerator.Daemon.Basic
import LoadGenerator.Proofs.Connection.Happenings

/-!
# The books of the daemon

The calls of all connections go through one set of counts and one log, and overlap in any way. What happens to them, one thing at a time, makes up a history, and the books say of it just what they should: a call is in the gauge from its beginning to its end; a call that is answered is counted, timed and logged once, under the code that its response shows, and one that is dropped, or that was never begun, not at all; each item that is run is counted once.
-/

namespace LoadGenerator

open Message Service

namespace Daemon

def happens (daemon : Daemon) : DaemonEvent → Option Happening
  | .connection place event => daemon.connections[place]?.bind fun conn => conn.happens daemon.settings daemon.shared event
  | _ => none

/-- All that happens to the calls of a daemon during some events. -/
def history (daemon : Daemon) : List DaemonEvent → List Happening
  | [] => []
  | event :: events => (daemon.happens event).toList ++ (daemon.apply event).history events

/-- How many calls with these labels are open. -/
def openCalls (daemon : Daemon) (labels : CallLabels) : Nat :=
  daemon.connections.countP fun conn => conn.openLabels? = some labels

/-- What the gauge, the counts and the log say after a history. -/
structure Books (daemon : Daemon) (history : List Happening) : Prop where
  gauge : ∀ labels, daemon.shared.metrics.inFlight.count labels = daemon.openCalls labels
  calls : ∀ labels, daemon.openCalls labels + history.countP (·.ends labels) = history.countP (·.begins labels)
  log : daemon.shared.log = history.filterMap Happening.event?
  requests : daemon.shared.metrics.requests = Tally.ofKeys (daemon.shared.log.map (·.finishLabels))
  latencies : daemon.shared.metrics.latencies = Tally.ofKeys (daemon.shared.log.map (·.finishLabels))
  runs : ∀ mode, daemon.shared.metrics.runs.total (·.mode = mode) = history.countP (·.runs mode)
  successes : ∀ mode, daemon.shared.metrics.runs.count ⟨mode, "success"⟩ = history.countP (·.succeeds mode)
  truthful : ∀ conn ∈ daemon.connections, conn.IsTruthful
  agree : ∀ event response, .answered event response ∈ history → Agrees event response

theorem books_start (configuration : Configuration) (draws : Load.Draws) : (start configuration draws).Books [] where
  gauge _ := rfl
  calls _ := rfl
  log := rfl
  requests := rfl
  latencies := rfl
  runs _ := rfl
  successes _ := rfl
  truthful _ h := nomatch h
  agree _ _ h := nomatch h

variable {daemon next : Daemon} {history : List Happening}

/-- Books that balance still do after one more happening. -/
theorem Books.note {opened opened' : Option CallLabels} {happening : Option Happening} (h : daemon.Books history)
    (heffect : Effect opened daemon.shared happening opened' next.shared)
    (hopen : ∀ labels, next.openCalls labels + opened.toList.count labels = daemon.openCalls labels + opened'.toList.count labels)
    (htruthful : ∀ conn ∈ next.connections, conn.IsTruthful)
    (hagree : ∀ event response, happening = some (.answered event response) → Agrees event response) :
    next.Books (history ++ happening.toList) where
  gauge labels := by
    have hgauge := heffect.inFlight_eq labels
    have hbefore := h.gauge labels
    have hcalls := hopen labels
    omega
  calls labels := by
    have hopened := heffect.opened_eq labels
    have hbefore := h.calls labels
    have hcalls := hopen labels
    rw [List.countP_append, List.countP_append]
    omega
  log := by
    rw [List.filterMap_append]
    obtain ⟨event, response, rfl, hlog, -⟩ | ⟨hnone, hlog, -⟩ := heffect.finish_cases
    · rw [hlog, h.log]
      rfl
    · rw [hlog, hnone, h.log, List.append_nil]
  requests := by
    obtain ⟨event, response, rfl, hlog, hrequests, -⟩ | ⟨-, hlog, hrequests, -⟩ := heffect.finish_cases
    · rw [hlog, hrequests, h.requests, List.map_append, List.map_singleton, Tally.ofKeys_concat]
    · rw [hlog, hrequests, h.requests]
  latencies := by
    obtain ⟨event, response, rfl, hlog, -, hlatencies⟩ | ⟨-, hlog, -, hlatencies⟩ := heffect.finish_cases
    · rw [hlog, hlatencies, h.latencies, List.map_append, List.map_singleton, Tally.ofKeys_concat]
    · rw [hlog, hlatencies, h.latencies]
  runs mode := by rw [heffect.runs_eq, h.runs, List.countP_append, Nat.cast_add]
  successes mode := by rw [heffect.successes_eq, h.successes, List.countP_append, Nat.cast_add]
  truthful := htruthful
  agree event response hmem := by
    obtain hbefore | hnow := List.mem_append.mp hmem
    · exact h.agree event response hbefore
    · exact hagree event response (Option.mem_toList.mp hnow)

theorem openCalls_set {place : Nat} {conn : Connection} (hplace : daemon.connections[place]? = some conn) (shared : Shared)
    (after : Connection) (labels : CallLabels) :
    { daemon with shared, connections := daemon.connections.set place after }.openCalls labels + conn.openLabels?.toList.count labels =
      daemon.openCalls labels + after.openLabels?.toList.count labels := by
  obtain ⟨hbound, rfl⟩ := List.getElem?_eq_some_iff.mp hplace
  have hcount (conn : Connection) : conn.openLabels?.toList.count labels = if conn.openLabels? = some labels then 1 else 0 := by
    cases conn.openLabels? <;> simp [List.count_singleton]
  have hpositive : daemon.connections[place].openLabels? = some labels → 0 < daemon.openCalls labels := fun h =>
    List.countP_pos_iff.mpr ⟨_, List.getElem_mem hbound, decide_eq_true h⟩
  rw [openCalls, List.countP_set hbound, hcount, hcount]
  simp only [decide_eq_true_eq]
  change openCalls daemon labels - _ + _ + _ = _
  by_cases hold : daemon.connections[place].openLabels? = some labels
  · have := hpositive hold
    rw [if_pos hold]
    omega
  · rw [if_neg hold]
    rfl

theorem applyAt_of_some {place : Nat} {conn : Connection} (hplace : daemon.connections[place]? = some conn) (event : ConnectionEvent) :
    daemon.applyAt place event =
      { daemon with
        shared := (conn.apply daemon.settings daemon.shared event).2
        connections := daemon.connections.set place (conn.apply daemon.settings daemon.shared event).1 } := by
  rw [applyAt, hplace]

theorem happens_connection (daemon : Daemon) (place : Nat) (event : ConnectionEvent) :
    daemon.happens (.connection place event) =
      daemon.connections[place]?.bind fun conn => conn.happens daemon.settings daemon.shared event := rfl

theorem Books.applyAt (h : daemon.Books history) (place : Nat) (event : ConnectionEvent) :
    (daemon.applyAt place event).Books (history ++ (daemon.happens (.connection place event)).toList) := by
  rw [happens_connection]
  cases hplace : daemon.connections[place]? with
  | none =>
    rw [Option.bind_none, Option.toList_none, List.append_nil, Daemon.applyAt, hplace]
    exact h
  | some conn =>
    have hconn : conn.IsTruthful := h.truthful conn (List.mem_of_getElem? hplace)
    rw [Option.bind_some, applyAt_of_some hplace]
    refine h.note (conn.effect_apply daemon.settings daemon.shared event) (openCalls_set hplace _ _) (fun other hother => ?_)
      (fun _ _ => Connection.happens_answered hconn)
    obtain hold | rfl := List.mem_or_eq_of_mem_set hother
    · exact h.truthful other hold
    · exact hconn.apply event

theorem Books.apply (h : daemon.Books history) (event : DaemonEvent) :
    (daemon.apply event).Books (history ++ (daemon.happens event).toList) := by
  have hquiet {next : Daemon} (hshared : next.shared = daemon.shared) (hopen : ∀ labels, next.openCalls labels = daemon.openCalls labels)
      (htruthful : ∀ conn ∈ next.connections, conn.IsTruthful) : next.Books (history ++ []) := by
    have heffect : Effect none daemon.shared none none next.shared := .none _ (by rw [hshared]) (by rw [hshared])
    exact h.note heffect (fun labels => by rw [hopen]) htruthful (fun _ _ h => nomatch h)
  cases event with
  | connection place event => exact h.applyAt place event
  | accept ids orders =>
    unfold Daemon.apply
    split_ifs
    · exact hquiet rfl (fun _ => rfl) h.truthful
    · refine hquiet rfl (fun labels => ?_) (fun conn hconn => ?_)
      · simp [openCalls, Connection.openLabels?]
      · obtain hold | hnew := List.mem_append.mp hconn
        · exact h.truthful conn hold
        · obtain rfl := List.mem_singleton.mp hnew
          exact .of_phase (by simp)
  | shutdown =>
    refine hquiet rfl (fun labels => ?_) (fun conn hconn => ?_)
    · have hsame (conn : Connection) : (conn.apply daemon.settings daemon.shared .shutdown).1.openLabels? = conn.openLabels? :=
        Connection.openLabels?_cancelCall { conn with shutdown := true }
      simp only [openCalls, Daemon.apply, List.countP_map, Function.comp_def, hsame]
    · obtain ⟨earlier, hearlier, rfl⟩ := List.mem_map.mp hconn
      exact (h.truthful earlier hearlier).apply .shutdown

theorem Books.applyAll (h : daemon.Books history) (events : List DaemonEvent) :
    (daemon.applyAll events).Books (history ++ daemon.history events) := by
  induction events generalizing daemon history with
  | nil =>
    rw [Daemon.history, List.append_nil]
    exact h
  | cons event events ih =>
    rw [Daemon.history, ← List.append_assoc]
    exact ih (h.apply event)

theorem effect_apply (daemon : Daemon) (event : DaemonEvent) :
    ∃ opened opened', Effect opened daemon.shared (daemon.happens event) opened' (daemon.apply event).shared := by
  have hquiet : Effect none daemon.shared none none daemon.shared := .none _ rfl rfl
  cases event with
  | connection place event =>
    rw [happens_connection, Daemon.apply]
    cases hplace : daemon.connections[place]? with
    | none =>
      rw [Option.bind_none, Daemon.applyAt, hplace]
      exact ⟨_, _, hquiet⟩
    | some conn =>
      rw [Option.bind_some, applyAt_of_some hplace]
      exact ⟨_, _, conn.effect_apply daemon.settings daemon.shared event⟩
  | accept ids orders =>
    unfold Daemon.apply
    split_ifs <;> exact ⟨_, _, hquiet⟩
  | shutdown => exact ⟨_, _, hquiet⟩

/-- Whatever happens on however many connections, the gauge says how many calls are open, which are those begun and not ended, so it is never negative; each call that is answered is in the log and in the counts and the latencies once, under the code that its response shows; and each item that is run is counted once, as a success just if it was answered as one. Nothing that happens does anything else to the gauge, the counts and the log. -/
theorem books_balance (configuration : Configuration) (draws : Load.Draws) (events : List DaemonEvent) :
    let daemon := (start configuration draws).applyAll events
    let history := (start configuration draws).history events
    let metrics := daemon.shared.metrics
    let log := daemon.shared.log
    (∀ labels,
      metrics.inFlight.count labels = daemon.openCalls labels ∧
      daemon.openCalls labels + history.countP (·.ends labels) = history.countP (·.begins labels) ∧
      metrics.requests.total (·.call = labels) = log.countP (fun event => event.labels = labels) ∧
      metrics.latencies.total (·.call = labels) = log.countP (fun event => event.labels = labels) ∧
      ∀ code,
        metrics.requests.count ⟨labels, code⟩ = log.countP (fun event => event.labels = labels ∧ event.code = code) ∧
        metrics.latencies.count ⟨labels, code⟩ = log.countP (fun event => event.labels = labels ∧ event.code = code)) ∧
    log = history.filterMap Happening.event? ∧
    (∀ event response, .answered event response ∈ history → Agrees event response) ∧
    (∀ mode,
      metrics.runs.total (·.mode = mode) = history.countP (·.runs mode) ∧
      metrics.runs.count ⟨mode, "success"⟩ = history.countP (·.succeeds mode)) ∧
    ∀ event, ∃ opened opened', Effect opened daemon.shared (daemon.happens event) opened' (daemon.apply event).shared := by
  intro daemon history metrics log
  have hbooks : daemon.Books history := (books_start configuration draws).applyAll events
  refine ⟨fun labels => ⟨hbooks.gauge labels, hbooks.calls labels, ?_, ?_, fun code => ⟨?_, ?_⟩⟩, hbooks.log, hbooks.agree,
    fun mode => ⟨hbooks.runs mode, hbooks.successes mode⟩, daemon.effect_apply⟩
  · rw [hbooks.requests, total_finishLabels]
  · rw [hbooks.latencies, total_finishLabels]
  · rw [hbooks.requests, count_finishLabels]
  · rw [hbooks.latencies, count_finishLabels]

end Daemon

end LoadGenerator
