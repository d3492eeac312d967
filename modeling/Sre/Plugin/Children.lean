/- GID: Sre/Plugin/Children
   digest: What becomes of the child and the client of a start, under every interleaving. -/

import Sre.Plugin.Lifecycle

set_option autoImplicit false

namespace Sre.Plugin

open Foundation Function

section Cells

def Act.caller : Act → Option Owner
  | .start i | .prepare i | .connect i | .abort i | .spawn i | .probe i | .succeed i | .fail i
  | .clean i | .leave i => some (.start i)
  | .begin_ j _ | .signal j | .resume j | .halt j | .settle j | .shut j => some (.stop j)
  | .client _ | .expire _ | .exit _ | .die _ => none

def Child.kill : Child → Child
  | .exited => .exited
  | _ => .killed

/-- The child was killed, or is gone. -/
def Child.down : Child → Bool
  | .killed | .exited => true
  | .none | .running => false

structure Cell where
  call : StartCall
  child : Child
  client : ClientState

def World.cell (w : World) (i : ℕ) : Cell := ⟨w.starts i, w.children i, w.clients i⟩

/-- What a step can do to a call of `Start`, its child and its client. A call of `Stop` only
touches what was published. -/
inductive CellStep (s : ProcessSupervisor) (i : ℕ) : Act → Cell → Cell → Prop
  | other {a : Act} {c : Cell} (caller : a.caller ≠ some (.start i)) (alive : a ≠ .die i) :
      CellStep s i a c c
  | exit {call : StartCall} {client : ClientState} :
      CellStep s i (.exit i) ⟨call, .running, client⟩ ⟨call, .exited, client⟩
  | die {call : StartCall} {client : ClientState} :
      CellStep s i (.die i) ⟨call, .killed, client⟩ ⟨call, .exited, client⟩
  | disconnect {j : ℕ} {child : Child} {client : ClientState} :
      CellStep s i (.halt j) ⟨.returned none, child, client⟩ ⟨.returned none, child, .closed⟩
  | kill {j : ℕ} {child : Child} {client : ClientState} :
      CellStep s i (.halt j) ⟨.returned none, child, client⟩ ⟨.returned none, child.kill, client⟩
  | reject {e : StartError} {child : Child} {client : ClientState} :
      CellStep s i (.start i) ⟨.idle, child, client⟩ ⟨.rejected e, child, client⟩
  | enter {op : ℕ} {child : Child} {client : ClientState} :
      CellStep s i (.start i) ⟨.idle, child, client⟩ ⟨.registered op, child, client⟩
  | withdraw {op : ℕ} {e : StartError} {child : Child} {client : ClientState} :
      CellStep s i (.prepare i) ⟨.registered op, child, client⟩ ⟨.refused op e, child, client⟩
  | prepare {op : ℕ} {child : Child} {client : ClientState} :
      CellStep s i (.prepare i) ⟨.registered op, child, client⟩ ⟨.launching op, child, client⟩
  | refuse {op : ℕ} {e : StartError} {child : Child} {client : ClientState} :
      CellStep s i (.connect i) ⟨.launching op, child, client⟩ ⟨.refused op e, child, client⟩
  | connect {op : ℕ} {child : Child} {client : ClientState} :
      CellStep s i (.connect i) ⟨.launching op, child, client⟩ ⟨.connected op, child, .opened⟩
  | abort {op : ℕ} {e : StartError} {child : Child} {client : ClientState} :
      CellStep s i (.abort i) ⟨.connected op, child, client⟩ ⟨.refused op e, child, .closed⟩
  | spawn {op : ℕ} {child : Child} {client : ClientState} :
      CellStep s i (.spawn i) ⟨.connected op, child, client⟩ ⟨.spawned op, .running, client⟩
  | probe {op : ℕ} {e : Option StartError} {child : Child} {client : ClientState} :
      CellStep s i (.probe i) ⟨.spawned op, child, client⟩ ⟨.probed op e, child, client⟩
  | succeed {op : ℕ} {e : Option StartError} {child : Child} {client : ClientState}
      (ok : s.state = .starting ∧ s.stopRequested = false) :
      CellStep s i (.succeed i) ⟨.probed op e, child, client⟩ ⟨.returned none, child, client⟩
  | fail {op : ℕ} {e : Option StartError} {e' : StartError} {child : Child}
      {client : ClientState} :
      CellStep s i (.fail i) ⟨.probed op e, child, client⟩ ⟨.cleaning op .cancel e', child, client⟩
  | failBare {op : ℕ} {e e' : StartError} {child : Child} {client : ClientState} :
      CellStep s i (.fail i) ⟨.refused op e, child, client⟩ ⟨.leaving op e', child, client⟩
  | cleanCancel {op : ℕ} {e : StartError} {child : Child} {client : ClientState} :
      CellStep s i (.clean i) ⟨.cleaning op .cancel e, child, client⟩
        ⟨.cleaning op .close e, child, client⟩
  | cleanClose {op : ℕ} {e : StartError} {child : Child} {client : ClientState} :
      CellStep s i (.clean i) ⟨.cleaning op .close e, child, client⟩
        ⟨.cleaning op .kill e, child, .closed⟩
  | cleanKill {op : ℕ} {e : StartError} {child : Child} {client : ClientState} :
      CellStep s i (.clean i) ⟨.cleaning op .kill e, child, client⟩
        ⟨.cleaning op .wait e, child.kill, client⟩
  | cleanWait {op : ℕ} {e : StartError} {client : ClientState} :
      CellStep s i (.clean i) ⟨.cleaning op .wait e, .exited, client⟩
        ⟨.leaving op e, .exited, client⟩
  | leave {op : ℕ} {e : StartError} {child : Child} {client : ClientState} :
      CellStep s i (.leave i) ⟨.leaving op e, child, client⟩ ⟨.returned (some e), child, client⟩

/-- What there is of a child and a client at each point of a call of `Start`. -/
def Cell.Owned : Cell → Prop
  | ⟨.idle, child, client⟩ | ⟨.rejected _, child, client⟩ | ⟨.registered _, child, client⟩
  | ⟨.launching _, child, client⟩ => child = .none ∧ client = .none
  | ⟨.connected _, child, client⟩ => child = .none ∧ client = .opened
  | ⟨.refused _ _, child, client⟩ => child = .none ∧ client ≠ .opened
  | ⟨.spawned _, child, client⟩ | ⟨.probed _ _, child, client⟩
  | ⟨.cleaning _ .cancel _, child, client⟩ | ⟨.cleaning _ .close _, child, client⟩ =>
    child ≠ .none ∧ client = .opened
  | ⟨.cleaning _ .kill _, child, client⟩ => child ≠ .none ∧ client = .closed
  | ⟨.cleaning _ .wait _, child, client⟩ => child.down = true ∧ client = .closed
  | ⟨.leaving _ _, child, client⟩ | ⟨.returned (some _), child, client⟩ =>
    child = .none ∧ client ≠ .opened ∨ child = .exited ∧ client = .closed
  | ⟨.returned none, child, _⟩ => child ≠ .none

variable {s : ProcessSupervisor} {i : ℕ} {a : Act} {c c' : Cell}

private theorem kill_down (child : Child) : child.kill.down = true := by
  cases child <;> rfl

private theorem kill_none (child : Child) : child.kill ≠ .none := by
  cases child <;> simp [Child.kill]

section

variable (step : CellStep s i a c c')
include step

theorem CellStep.owned (owned : c.Owned) : c'.Owned := by
  cases step with
  | other | disconnect | reject | enter | prepare | probe | fail | cleanCancel | leave =>
    exact owned
  | @exit call client | @die call client =>
    cases call with
    | returned result => cases result <;> simp_all [Cell.Owned]
    | cleaning op stage e => cases stage <;> simp_all [Cell.Owned, Child.down]
    | _ => simp_all [Cell.Owned]
  | kill => exact kill_none _
  | withdraw | refuse => exact ⟨owned.1, by simp [owned.2]⟩
  | connect | cleanClose => exact ⟨owned.1, rfl⟩
  | abort => exact ⟨owned.1, by simp⟩
  | spawn => exact ⟨by simp, owned.2⟩
  | succeed => exact owned.1
  | failBare => exact Or.inl owned
  | cleanKill => exact ⟨kill_down _, owned.2⟩
  | cleanWait => exact Or.inr ⟨rfl, owned.2⟩

theorem CellStep.child (child : c.child ≠ .none) : c'.child ≠ .none := by
  cases step with
  | exit | die | spawn => simp
  | kill | cleanKill => exact kill_none _
  | _ => exact child

theorem CellStep.entered (entered : c.call.entered = true) : c'.call.entered = true := by
  cases step with
  | reject => cases entered
  | enter => rfl
  | _ => exact entered

theorem CellStep.published (published : c.call = .returned none) :
    c'.call = .returned none ∧ (c.child.down = true → c'.child.down = true) := by
  cases step with
  | other => exact ⟨published, id⟩
  | exit | die => exact ⟨published, fun _ => rfl⟩
  | disconnect => exact ⟨rfl, id⟩
  | kill => exact ⟨rfl, fun _ => kill_down _⟩
  | _ => cases published

end

/-- The call has yet to look at the state for the last time. -/
def StartCall.early : StartCall → Bool
  | .registered _ | .launching _ | .connected _ | .spawned _ | .refused _ _ | .probed _ _ => true
  | _ => false

def StartCall.failing : StartCall → Bool
  | .cleaning _ _ _ | .leaving _ _ | .returned (some _) => true
  | _ => false

theorem CellStep.failing (step : CellStep s i a c c') (failing : c.call.failing = true) :
    c'.call.failing = true := by
  cases step with
  | other | exit | die => exact failing
  | cleanCancel | cleanClose | cleanKill | cleanWait | leave => rfl
  | _ => cases failing

theorem CellStep.early (step : CellStep s i a c c') (early : c.call.early = true)
    (requested : s.stopRequested = true ∨ s.state = .closed) :
    c'.call.early = true ∨ c'.call.failing = true := by
  cases step with
  | other | exit | die => exact Or.inl early
  | succeed ok => rcases requested with requested | requested <;> simp [requested] at ok
  | fail | failBare => exact Or.inr rfl
  | disconnect | kill | reject | cleanCancel | cleanClose | cleanKill | cleanWait | leave =>
    cases early
  | _ => exact Or.inl rfl

/-- How far a call of `Start` is from its return. -/
def StartCall.rank : StartCall → ℕ
  | .registered _ => 10
  | .launching _ => 9
  | .connected _ => 8
  | .spawned _ => 7
  | .refused _ _ | .probed _ _ => 6
  | .cleaning _ .cancel _ => 5
  | .cleaning _ .close _ => 4
  | .cleaning _ .kill _ => 3
  | .cleaning _ .wait _ => 2
  | .leaving _ _ => 1
  | .idle | .rejected _ | .returned _ => 0

def Child.rank (child : Child) : ℕ := if child = .exited then 0 else 1

def Cell.rank (c : Cell) : ℕ := 2 * c.call.rank + c.child.rank

private theorem rank_le_one (child : Child) : child.rank ≤ 1 := by
  cases child <;> decide

/-- Every step of a call of `Start` brings it nearer to its return, and no other step takes it
further away. -/
theorem CellStep.rank {op : ℕ} (step : CellStep s i a c c') (at_ : c.call.operation = some op) :
    c'.call.operation = none ∨ c'.call.operation = some op ∧ c'.rank ≤ c.rank ∧
      (a.caller = some (.start i) ∨ a = .die i → c'.rank < c.rank) := by
  have fewer {c c' : Cell} (less : c'.call.rank < c.call.rank) : c'.rank < c.rank := by
    have := rank_le_one c'.child
    unfold Cell.rank
    omega
  have own (same : c'.call.operation = some op) (less : c'.rank < c.rank) :
      c'.call.operation = none ∨ c'.call.operation = some op ∧ c'.rank ≤ c.rank ∧
        (a.caller = some (.start i) ∨ a = .die i → c'.rank < c.rank) :=
    Or.inr ⟨same, Nat.le_of_lt less, fun _ => less⟩
  cases step with
  | other caller alive =>
    refine Or.inr ⟨at_, le_rfl, ?_⟩
    rintro (mine | dies)
    · exact (caller mine).elim
    · exact (alive dies).elim
  | exit | die => exact Or.inr ⟨at_, Nat.le_succ _, fun _ => Nat.lt_succ_self _⟩
  | disconnect | kill | reject | enter => cases at_
  | succeed | leave => exact Or.inl rfl
  | _ => exact own at_ (fewer (by simp [StartCall.rank]))

end Cells

section Halts

/-- What a step can do to a call of `Stop`. Only a run that was published is stopped. -/
inductive HaltStep (s : ProcessSupervisor) (child child' : ℕ → Child) (j : ℕ) :
    Act → StopCall → StopCall → Prop
  | other {a : Act} {call : StopCall} (caller : a.caller ≠ some (.stop j)) :
      HaltStep s child child' j a call call
  | aside {a : Act} {call call' : StopCall} (before : call.operation = none)
      (after : call'.operation = none) : HaltStep s child child' j a call call'
  | stop {i op : ℕ} {closing : Bool} (run : s.run = some i) :
      HaltStep s child child' j (.begin_ j closing) .idle (.stopping i op .close closing)
  | stopBare {op : ℕ} {closing : Bool} :
      HaltStep s child child' j (.begin_ j closing) .idle (.stopping 0 op .done closing)
  | close {i op : ℕ} {closing : Bool} :
      HaltStep s child child' j (.halt j) (.stopping i op .close closing)
        (.stopping i op .look closing)
  | look {i op : ℕ} {closing : Bool} {stage : Halt} (next : stage = .done ∨ stage = .signal) :
      HaltStep s child child' j (.halt j) (.stopping i op .look closing)
        (.stopping i op stage closing)
  | signal {i op : ℕ} {closing : Bool} :
      HaltStep s child child' j (.halt j) (.stopping i op .signal closing)
        (.stopping i op .wait closing)
  | gone {i op : ℕ} {closing : Bool} :
      HaltStep s child child' j (.halt j) (.stopping i op .wait closing)
        (.stopping i op .done closing)
  | late {i op : ℕ} {closing : Bool} :
      HaltStep s child child' j (.halt j) (.stopping i op .wait closing)
        (.stopping i op .kill closing)
  | kill {i op : ℕ} {closing : Bool} (down : (child' i).down = true) :
      HaltStep s child child' j (.halt j) (.stopping i op .kill closing)
        (.stopping i op .killed closing)
  | killed {i op : ℕ} {closing : Bool} :
      HaltStep s child child' j (.halt j) (.stopping i op .killed closing)
        (.stopping i op .done closing)
  | settle {i op : ℕ} {closing : Bool} :
      HaltStep s child child' j (.settle j) (.stopping i op .done closing) (.after closing)

end Halts

section Soundness

/-- The operations are in order, every call of `Start` has what belongs to it, and calls of
`Stop` work on what was published. -/
structure World.Sound (w : World) : Prop where
  orderly : w.view.Orderly
  owned : ∀ i, (w.cell i).Owned
  published : ∀ i, w.supervisor.run = some i → w.starts i = .returned none
  targets : ∀ j i op stage closing, w.stops j = .stopping i op stage closing → stage ≠ .done →
    w.starts i = .returned none
  killed : ∀ j i op closing, w.stops j = .stopping i op .killed closing → (w.children i).down = true

variable {w w' u : World} {a : Act} {i j op : ℕ} {s : ProcessSupervisor} {client : ClientState}

private theorem kill_children (w : World) (i : ℕ) :
    (w.kill i).children = update w.children i (w.children i).kill := by
  unfold World.kill
  split
  · rename_i gone
    have same : (w.children i).kill = w.children i := by rw [gone]; rfl
    rw [same, update_eq_self]
  · rename_i alive
    have killed : (w.children i).kill = .killed := by
      cases child : w.children i with
      | exited => exact (alive child).elim
      | _ => rfl
    rw [killed]
    rfl

private theorem kill_frame (w : World) (i : ℕ) : (w.kill i).starts = w.starts ∧
    (w.kill i).stops = w.stops ∧ (w.kill i).clients = w.clients := by
  unfold World.kill
  split
  · exact ⟨rfl, rfl, rfl⟩
  · exact ⟨rfl, rfl, rfl⟩

private theorem close_frame (w : World) (op : ℕ) : (w.close op).starts = w.starts ∧
    (w.close op).stops = w.stops ∧ (w.close op).children = w.children ∧
    (w.close op).clients = w.clients := by
  unfold World.close
  grind

private theorem CellStep.ofStart {before call : StartCall} {child : Child}
    (caller : a.caller = some (.start i)) (apart : ∀ i', i' ≠ i → u.cell i' = w.cell i')
    (at_ : w.starts i = before) (ownChild : u.children i = child) (ownClient : u.clients i = client)
    (here : CellStep s i a ⟨before, w.children i, w.clients i⟩ ⟨call, child, client⟩) (i' : ℕ) :
    CellStep s i' a (w.cell i') ((u.setStart i call).cell i') := by
  by_cases same : i' = i
  · subst same
    have target : (u.setStart i' call).cell i' = ⟨call, child, client⟩ := by
      rw [← ownChild, ← ownClient]
      exact congrArg (Cell.mk · _ _) (update_self ..)
    rw [target, World.cell, at_]
    exact here
  · have target : (u.setStart i call).cell i' = w.cell i' := by
      rw [← apart i' same]
      exact congrArg (Cell.mk · _ _) (update_of_ne same ..)
    rw [target]
    refine .other ?_ ?_
    · rw [caller]
      simpa using Ne.symm same
    · rintro rfl
      cases caller

private theorem setClient_cell (i' : ℕ) (apart : i' ≠ i) :
    (w.setClient i client).cell i' = w.cell i' :=
  congrArg (Cell.mk _ _) (update_of_ne apart ..)

private theorem kill_cell (i' : ℕ) (apart : i' ≠ i) : (w.kill i).cell i' = w.cell i' := by
  obtain ⟨starts, -, clients⟩ := kill_frame w i
  unfold World.cell
  rw [starts, clients, kill_children, update_of_ne apart]

private theorem CellStep.ofHalt (apart : ∀ i', i' ≠ i → w'.cell i' = w.cell i')
    (here : CellStep s i (.halt j) (w.cell i) (w'.cell i)) (i' : ℕ) :
    CellStep s i' (.halt j) (w.cell i') (w'.cell i') := by
  by_cases same : i' = i
  · rw [same]
    exact here
  · rw [apart i' same]
    exact .other (by simp [Act.caller]) (by simp)

private theorem CellStep.kills (published : w.starts i = .returned none) (call : StopCall)
    (i' : ℕ) : CellStep s i' (.halt j) (w.cell i') (((w.kill i).setStop j call).cell i') := by
  refine .ofHalt (fun i' apart => kill_cell i' apart) ?_ i'
  obtain ⟨starts, -, clients⟩ := kill_frame w i
  show CellStep s i _ ⟨w.starts i, _, _⟩
    ⟨(w.kill i).starts i, (w.kill i).children i, (w.kill i).clients i⟩
  rw [starts, clients, kill_children, update_self, published]
  exact .kill

theorem Step.cell (step : Step w a w') (sound : w.Sound) (i : ℕ) :
    CellStep w.supervisor i a (w.cell i) (w'.cell i) := by
  cases step with
  | reject idle => exact .ofStart rfl (fun _ _ => rfl) idle rfl rfl .reject i
  | enter idle => exact .ofStart rfl (fun _ _ => rfl) idle rfl rfl .enter i
  | withdraw at_ => exact .ofStart rfl (fun _ _ => rfl) at_ rfl rfl .withdraw i
  | prepare at_ => exact .ofStart rfl (fun _ _ => rfl) at_ rfl rfl .prepare i
  | late at_ | refuse at_ => exact .ofStart rfl (fun _ _ => rfl) at_ rfl rfl .refuse i
  | connect at_ =>
    exact .ofStart rfl setClient_cell at_ rfl (update_self ..) .connect i
  | abort at_ => exact .ofStart rfl setClient_cell at_ rfl (update_self ..) .abort i
  | @spawn i' op at_ =>
    refine .ofStart (u := w.setChild i' .running) rfl ?_ at_ (update_self ..) rfl
      .spawn i
    intro i'' apart
    exact congrArg (Cell.mk _ · _) (update_of_ne apart ..)
  | probe at_ => exact .ofStart rfl (fun _ _ => rfl) at_ rfl rfl .probe i
  | succeed at_ ok =>
    exact .ofStart rfl (fun _ _ => rfl) at_ rfl rfl
      (.succeed (ProcessSupervisor.finishError_none ok)) i
  | fail at_ => exact .ofStart rfl (fun _ _ => rfl) at_ rfl rfl .fail i
  | failBare at_ => exact .ofStart rfl (fun _ _ => rfl) at_ rfl rfl .failBare i
  | cleanCancel at_ => exact .ofStart rfl (fun _ _ => rfl) at_ rfl rfl .cleanCancel i
  | cleanClose at_ =>
    exact .ofStart rfl setClient_cell at_ rfl (update_self ..) .cleanClose i
  | @cleanKill i' op e at_ =>
    obtain ⟨-, -, clients⟩ := kill_frame w i'
    have child : (w.kill i').children i' = (w.children i').kill := by
      rw [kill_children, update_self]
    exact .ofStart rfl kill_cell at_ child (congrFun clients i') .cleanKill i
  | @cleanWait i' op e at_ gone =>
    refine .ofStart rfl (fun _ _ => rfl) at_ gone rfl ?_ i
    rw [gone]
    exact .cleanWait
  | @leave i' op e at_ =>
    obtain ⟨starts, -, children, clients⟩ := close_frame w op
    refine .ofStart rfl ?_ at_ (congrFun children i') (congrFun clients i') .leave i
    intro i'' _
    unfold World.cell
    rw [← starts, ← children, ← clients]
  | @haltClose j i' op closing at_ =>
    refine .ofHalt (fun i'' apart => setClient_cell i'' apart) ?_ i
    have published := sound.targets j i' op .close closing at_ (by simp)
    show CellStep _ _ _ ⟨w.starts i', _, _⟩ ⟨w.starts i', _, update w.clients i' _ i'⟩
    rw [published, update_self]
    exact .disconnect
  | haltFailed at_ | haltKill at_ => exact .kills (sound.targets _ _ _ _ _ at_ (by simp)) _ i
  | @settle j i' op closing at_ =>
    obtain ⟨starts, -, children, clients⟩ := close_frame w op
    show CellStep _ _ _ _ ⟨(w.close op).starts i, (w.close op).children i, (w.close op).clients i⟩
    rw [starts, children, clients]
    exact .other (by simp [Act.caller]) (by simp)
  | @exit i' alive =>
    by_cases same : i = i'
    · subst same
      show CellStep _ _ _ ⟨_, w.children i, _⟩ ⟨_, update w.children i _ i, _⟩
      rw [alive, update_self]
      exact .exit
    · show CellStep _ _ _ _ ⟨_, update w.children i' _ i, _⟩
      rw [update_of_ne same]
      exact .other (by simp [Act.caller]) (by simp)
  | @die i' killed =>
    by_cases same : i = i'
    · subst same
      show CellStep _ _ _ ⟨_, w.children i, _⟩ ⟨_, update w.children i _ i, _⟩
      rw [killed, update_self]
      exact .die
    · show CellStep _ _ _ _ ⟨_, update w.children i' _ i, _⟩
      rw [update_of_ne same]
      exact .other (by simp [Act.caller]) (by simpa using Ne.symm same)
  | _ => exact .other (by simp [Act.caller]) (by simp)

variable {call : StopCall} {child child' : ℕ → Child}

private theorem HaltStep.ofStop {before : StopCall} (caller : a.caller = some (.stop j))
    (stops : u.stops = w.stops) (at_ : w.stops j = before)
    (here : HaltStep s child child' j a before call) (j' : ℕ) :
    HaltStep s child child' j' a (w.stops j') ((u.setStop j call).stops j') := by
  show HaltStep _ _ _ _ _ _ (update u.stops j call j')
  by_cases same : j' = j
  · subst same
    rw [update_self, at_]
    exact here
  · rw [update_of_ne same, stops]
    refine .other ?_
    rw [caller]
    simpa using Ne.symm same

theorem Step.halt (step : Step w a w') (j : ℕ) :
    HaltStep w.supervisor w.children w'.children j a (w.stops j) (w'.stops j) := by
  cases step with
  | pass idle => exact .ofStop rfl rfl idle (.aside rfl (after_operation _)) j
  | request idle | join idle => exact .ofStop rfl rfl idle (.aside rfl rfl) j
  | stop idle _ run => exact .ofStop rfl rfl idle (.stop run) j
  | stopBare idle => exact .ofStop rfl rfl idle .stopBare j
  | signal at_ | signalNone at_ | shut at_ => exact .ofStop rfl rfl at_ (.aside rfl rfl) j
  | resume at_ => exact .ofStop rfl rfl at_ (.aside rfl (after_operation _)) j
  | haltClose at_ => exact .ofStop rfl rfl at_ .close j
  | haltLook at_ =>
    refine .ofStop rfl rfl at_ (.look ?_) j
    split
    · exact Or.inl rfl
    · exact Or.inr rfl
  | haltSignal at_ => exact .ofStop rfl rfl at_ .signal j
  | haltFailed at_ => exact .ofStop rfl (kill_frame w _).2.1 at_ .signal j
  | haltGone at_ => exact .ofStop rfl rfl at_ .gone j
  | haltLate at_ => exact .ofStop rfl rfl at_ .late j
  | @haltKill j' i op closing at_ =>
    refine .ofStop rfl (kill_frame w _).2.1 at_ (.kill ?_) j
    show ((w.kill i).children i).down = true
    rw [kill_children, update_self]
    exact kill_down _
  | haltKilled at_ => exact .ofStop rfl rfl at_ .killed j
  | settle at_ => exact .ofStop rfl (close_frame w _).2.1 at_ .settle j
  | cleanKill =>
    show HaltStep _ _ _ _ _ _ ((w.kill _).stops j)
    rw [(kill_frame w _).2.1]
    exact .other (by simp [Act.caller])
  | leave =>
    show HaltStep _ _ _ _ _ _ ((w.close _).stops j)
    rw [(close_frame w _).2.1]
    exact .other (by simp [Act.caller])
  | _ => exact .other (by simp [Act.caller])

theorem CellStep.succeeds {c c' : Cell} (step : CellStep s i (.succeed i) c c') :
    c'.call = .returned none := by
  cases step with
  | other caller => exact (caller rfl).elim
  | succeed => rfl

variable {call' : StopCall} {closing : Bool}

private theorem HaltStep.target {stage : Halt} (step : HaltStep s child child' j a call call')
    (at_ : call' = .stopping i op stage closing) (unfinished : stage ≠ .done) :
    s.run = some i ∨ ∃ before, call = .stopping i op before closing ∧ before ≠ .done := by
  cases step with
  | other => exact Or.inr ⟨stage, at_, unfinished⟩
  | aside _ after => simp [at_, StopCall.operation] at after
  | stop run =>
    cases at_
    exact Or.inl run
  | stopBare =>
    cases at_
    exact (unfinished rfl).elim
  | settle =>
    have outside := congrArg StopCall.operation at_
    rw [after_operation] at outside
    cases outside
  | _ =>
    cases at_
    exact Or.inr ⟨_, rfl, by simp⟩

private theorem HaltStep.down (step : HaltStep s child child' j a call call')
    (at_ : call' = .stopping i op .killed closing) :
    call = .stopping i op .killed closing ∨ (child' i).down = true := by
  cases step with
  | other => exact Or.inl at_
  | aside _ after => simp [at_, StopCall.operation] at after
  | look next =>
    cases at_
    simp at next
  | kill down =>
    cases at_
    exact Or.inr down
  | settle =>
    have outside := congrArg StopCall.operation at_
    rw [after_operation] at outside
    cases outside
  | _ => cases at_

theorem Step.sound (step : Step w a w') (sound : w.Sound) : w'.Sound where
  orderly := (step.view sound.orderly).orderly sound.orderly
  owned i := (step.cell sound i).owned (sound.owned i)
  published := by
    intro i run
    rcases step.supervisor.run run with before | rfl
    · exact ((step.cell sound i).published (sound.published i before)).1
    · exact (step.cell sound i).succeeds
  targets := by
    intro j i op stage closing at_ unfinished
    refine ((step.cell sound i).published ?_).1
    rcases (step.halt j).target at_ unfinished with run | ⟨before, at', unfinished'⟩
    · exact sound.published i run
    · exact sound.targets j i op before closing at' unfinished'
  killed := by
    intro j i op closing at_
    rcases (step.halt j).down at_ with before | down
    · have published := sound.targets j i op .killed closing before (by simp)
      exact ((step.cell sound i).published published).2 (sound.killed j i op closing before)
    · exact down

theorem sound_of_init (start : supervisorSystem.init w) : w.Sound := by
  obtain rfl := start
  have idle : ∀ c, World.operation ⟨⟨.new, none, none, false, none⟩, fun _ => .idle,
      fun _ => .idle, fun _ => none, fun _ => .none, fun _ => .none, 0, fun _ => 0⟩ c = none := by
    intro c
    cases c <;> rfl
  constructor
  · refine ⟨⟨?_, ?_, ?_, ?_, ?_, fun _ _ => rfl⟩, ?_, ?_, ?_, ?_, ?_, fun _ _ => rfl⟩
    · intro c op at_
      cases (idle c).symm.trans at_
    · intro op done
      cases done
    · intro c c' op op' at_
      cases (idle c).symm.trans at_
    · intro op done
      cases done
    · intro op bound
      exact (Nat.not_lt_zero op bound).elim
    · intro i op at_
      cases at_
    · intro j op at_
      cases at_
    · intro starting
      cases starting
    · intro stopping
      cases stopping
    · intro i i' entered
      cases entered
  · exact fun _ => ⟨rfl, rfl⟩
  · intro i run
    cases run
  · intro j i op stage closing at_
    cases at_
  · intro j i op closing at_
    cases at_

theorem reachable_sound (reached : supervisorSystem.Reachable System.free w) : w.Sound :=
  reached.invariant (fun _ start => sound_of_init start) fun _ _ _ sound step _ => step.sound sound

end Soundness

section Doomed

/-- The start fails: it has yet to find the request to stop or the close, or it has found it. -/
def World.Doomed (w : World) (i : ℕ) : Prop :=
  (w.starts i).early = true ∧ (w.supervisor.stopRequested = true ∨ w.supervisor.state = .closed) ∨
    (w.starts i).failing = true

variable {w w' : World} {a : Act} {i op : ℕ} {call : StartCall}

private theorem early_operation (early : call.early = true) : ∃ op, call.operation = some op := by
  cases call with
  | idle | rejected | cleaning | leaving | returned => cases early
  | _ => exact ⟨_, rfl⟩

private theorem operation_cases (at_ : call.operation = some op) :
    call.early = true ∨ call.failing = true := by
  cases call with
  | idle | rejected | returned => cases at_
  | cleaning | leaving => exact Or.inr rfl
  | _ => exact Or.inl rfl

private theorem Step.leaves (step : Step w (.leave i) w') : ∃ op e, w.starts i = .leaving op e := by
  cases step with
  | leave at_ => exact ⟨_, _, at_⟩

theorem Step.doomed (step : Step w a w') (sound : w.Sound) (doomed : w.Doomed i) : w'.Doomed i := by
  rcases doomed with ⟨early, requested⟩ | failing
  · rcases (step.cell sound i).early early requested with still | failing
    · rcases step.supervisor.requested requested with kept | ⟨i', rfl⟩
      · exact Or.inl ⟨still, kept⟩
      · -- only the start in operation withdraws the request, and it is past its last look
        obtain ⟨op, e, leaving⟩ := step.leaves
        obtain ⟨op', here⟩ := early_operation early
        have there : w.view.operation (.start i') = some op := congrArg StartCall.operation leaving
        cases sound.orderly.single (.start i) (.start i') op' op here there
        rw [leaving] at early
        cases early
    · exact Or.inr failing
  · exact Or.inr ((step.cell sound i).failing failing)

private theorem CellStep.begins {s : ProcessSupervisor} {c c' : Cell} (step : CellStep s i a c c')
    (begins : a.begins = true) : c' = c := by
  cases step with
  | other => rfl
  | _ => cases begins

theorem Step.dooms (step : Step w a w') (sound : w.Sound) (begins : a.begins = true)
    (at_ : (w.starts i).operation = some op) : w'.Doomed i := by
  have same : w'.starts i = w.starts i :=
    congrArg Cell.call ((step.cell sound i).begins begins)
  unfold World.Doomed
  rw [same]
  rcases operation_cases at_ with early | failing
  · exact Or.inl ⟨early, step.supervisor.begins begins (sound.orderly.starts i op at_)⟩
  · exact Or.inr failing

theorem World.Doomed.returned {result : Option StartError} (doomed : w.Doomed i) (sound : w.Sound)
    (at_ : w.starts i = .returned result) : result.isSome = true ∧
      (w.children i = .none ∧ w.clients i ≠ .opened ∨
        w.children i = .exited ∧ w.clients i = .closed) := by
  unfold World.Doomed at doomed
  have owned := sound.owned i
  unfold World.cell at owned
  rw [at_] at doomed owned
  cases result with
  | none => simp [StartCall.early, StartCall.failing] at doomed
  | some e => exact ⟨rfl, owned⟩

end Doomed

section Progress

/-- The call was not yet made. -/
def Act.calls : Act → Bool
  | .start _ | .begin_ _ _ => true
  | _ => false

/-- A call that was made goes on, or a child that was killed exits. -/
def Act.drives (c : Owner) (i : ℕ) (a : Act) : Prop :=
  a.caller = some c ∧ a.calls = false ∨ a = .die i

variable {w w' : World} {a : Act} {i j op : ℕ}

private theorem finishError_some (s : ProcessSupervisor) (e : StartError) :
    ∃ e', s.finishError (some e) = some e' := by
  unfold ProcessSupervisor.finishError
  dsimp only
  split
  · exact ⟨_, rfl⟩
  · rename_i none
    split at none
    · cases none
    · cases none

theorem World.Sound.start_goes_on (sound : w.Sound) (at_ : (w.starts i).operation = some op) :
    ∃ a w', a.drives (.start i) i ∧ Step w a w' := by
  cases call : w.starts i with
  | idle | rejected | returned => simp [call, StartCall.operation] at at_
  | registered op =>
    by_cases here : w.supervisor.state = .starting ∧ w.supervisor.stopRequested = false
    · exact ⟨.prepare i, _, Or.inl ⟨rfl, rfl⟩, .prepare call here⟩
    · refine ⟨.prepare i, _, Or.inl ⟨rfl, rfl⟩, .withdraw call ?_ rfl⟩
      rw [not_and_or, Bool.not_eq_false] at here
      exact here
  | launching op =>
    cases context : w.contexts i with
    | none => exact ⟨.connect i, _, Or.inl ⟨rfl, rfl⟩, .refuse call context⟩
    | some cause => exact ⟨.connect i, _, Or.inl ⟨rfl, rfl⟩, .late call context⟩
  | connected op => exact ⟨.spawn i, _, Or.inl ⟨rfl, rfl⟩, .spawn call⟩
  | spawned op =>
    exact ⟨.probe i, _, Or.inl ⟨rfl, rfl⟩, .probe (e := some .notReady) call rfl⟩
  | refused op e =>
    obtain ⟨e', error⟩ := finishError_some w.supervisor e
    exact ⟨.fail i, _, Or.inl ⟨rfl, rfl⟩, .failBare call error⟩
  | probed op e =>
    cases error : w.supervisor.finishError e with
    | none => exact ⟨.succeed i, _, Or.inl ⟨rfl, rfl⟩, .succeed call error⟩
    | some e' => exact ⟨.fail i, _, Or.inl ⟨rfl, rfl⟩, .fail call error⟩
  | cleaning op stage e =>
    cases stage with
    | cancel => exact ⟨.clean i, _, Or.inl ⟨rfl, rfl⟩, .cleanCancel call⟩
    | close => exact ⟨.clean i, _, Or.inl ⟨rfl, rfl⟩, .cleanClose call⟩
    | kill => exact ⟨.clean i, _, Or.inl ⟨rfl, rfl⟩, .cleanKill call⟩
    | wait =>
      have owned := sound.owned i
      unfold World.cell at owned
      rw [call] at owned
      cases child : w.children i with
      | exited => exact ⟨.clean i, _, Or.inl ⟨rfl, rfl⟩, .cleanWait call child⟩
      | killed => exact ⟨.die i, _, Or.inr rfl, .die child⟩
      | none | running => simp [Cell.Owned, child, Child.down] at owned
  | leaving op e => exact ⟨.leave i, _, Or.inl ⟨rfl, rfl⟩, .leave call⟩

variable {closing : Bool} {stage : Halt} {s : ProcessSupervisor}

theorem World.Sound.stop_goes_on (sound : w.Sound)
    (at_ : w.stops j = .stopping i op stage closing) :
    ∃ a w', a.drives (.stop j) i ∧ Step w a w' := by
  cases stage with
  | close => exact ⟨.halt j, _, Or.inl ⟨rfl, rfl⟩, .haltClose at_⟩
  | look => exact ⟨.halt j, _, Or.inl ⟨rfl, rfl⟩, .haltLook at_⟩
  | signal => exact ⟨.halt j, _, Or.inl ⟨rfl, rfl⟩, .haltSignal at_⟩
  | wait => exact ⟨.halt j, _, Or.inl ⟨rfl, rfl⟩, .haltLate at_⟩
  | kill => exact ⟨.halt j, _, Or.inl ⟨rfl, rfl⟩, .haltKill at_⟩
  | killed =>
    have down := sound.killed j i op closing at_
    cases child : w.children i with
    | exited => exact ⟨.halt j, _, Or.inl ⟨rfl, rfl⟩, .haltKilled at_ child⟩
    | killed => exact ⟨.die i, _, Or.inr rfl, .die child⟩
    | none | running => simp [child, Child.down] at down
  | done => exact ⟨.settle j, _, Or.inl ⟨rfl, rfl⟩, .settle at_⟩

def Halt.rank : Halt → ℕ
  | .close => 7
  | .look => 6
  | .signal => 5
  | .wait => 4
  | .kill => 3
  | .killed => 2
  | .done => 1

def StopCall.rank : StopCall → ℕ
  | .stopping _ _ stage _ => stage.rank
  | _ => 0

theorem HaltStep.rank {child child' : ℕ → Child} {call call' : StopCall}
    (step : HaltStep s child child' j a call call') (at_ : call = .stopping i op stage closing) :
    call'.operation = none ∨ (∃ next, call' = .stopping i op next closing) ∧
      (call'.rank < call.rank ∨ call' = call ∧ a.caller ≠ some (.stop j)) := by
  cases step with
  | other caller => exact Or.inr ⟨⟨stage, at_⟩, Or.inr ⟨rfl, caller⟩⟩
  | aside before => simp [at_, StopCall.operation] at before
  | stop | stopBare => cases at_
  | settle => exact Or.inl (after_operation _)
  | look next =>
    cases at_
    rcases next with rfl | rfl
    · exact Or.inr ⟨⟨_, rfl⟩, Or.inl (by simp [StopCall.rank, Halt.rank])⟩
    · exact Or.inr ⟨⟨_, rfl⟩, Or.inl (by simp [StopCall.rank, Halt.rank])⟩
  | _ =>
    cases at_
    exact Or.inr ⟨⟨_, rfl⟩, Or.inl (by simp [StopCall.rank, Halt.rank])⟩

theorem CellStep.childRank {c c' : Cell} (step : CellStep s i a c c') (owned : c.Owned) :
    c'.child.rank ≤ c.child.rank ∧ (a = .die i → c'.child.rank < c.child.rank) := by
  have killed (child : Child) : child.kill.rank ≤ child.rank := by
    cases child <;> decide
  cases step with
  | other _ alive => exact ⟨le_rfl, fun dies => (alive dies).elim⟩
  | exit | die => exact ⟨Nat.zero_le 1, fun _ => Nat.zero_lt_one⟩
  | kill | cleanKill => exact ⟨killed _, by simp⟩
  | spawn =>
    obtain ⟨rfl, -⟩ := owned
    exact ⟨le_refl 1, by simp⟩
  | _ => exact ⟨le_rfl, by simp⟩

end Progress

section Contract

open System

/-- Calls that were made go on, and children that were killed exit. -/
def Lively (run : Execution supervisorSystem) : Prop := ∀ c i, run.Fair (Act.drives c i)

variable {run : Execution supervisorSystem} {w w' : World} {a : Act} {i j n op : ℕ} {c : Owner}

private theorem sound_at (run : Execution supervisorSystem) (n : ℕ) : (run.state n).Sound :=
  reachable_sound (run.reachable n)

theorem Lively.ends (lively : Lively run) (at_ : (run.state n).operation c = some op) :
    ∃ m, n < m ∧ (run.state m).operation c = none ∧ (run.state m).closes op = 1 := by
  have ends {w w' : World} {a : Act} (sound : w.Sound) (at_ : w.operation c = some op)
      (step : Step w a w') :
      w'.operation c = some op ∨ w'.operation c = none ∧ w'.closes op = 1 :=
    (step.view sound.orderly).ends sound.orderly at_
  cases c with
  | start i =>
    refine (lively (.start i) i).leads (P := fun w => w.operation (.start i) = some op)
      (Q := fun w => w.operation (.start i) = none ∧ w.closes op = 1)
      (fun w => (w.cell i).rank) ?_ ?_ at_
    · intro w reached at_
      exact (reachable_sound reached).start_goes_on at_
    · intro w a w' reached at_ step
      have sound := reachable_sound reached
      rcases ends sound at_ step with still | over_
      · rcases (step.cell sound i).rank at_ with none | ⟨-, less, fewer⟩
        · cases none.symm.trans still
        · exact Or.inr ⟨still, less, fun drives => fewer (drives.imp_left And.left)⟩
      · exact Or.inl over_
  | stop j =>
    have stopping : ∃ i stage closing, (run.state n).stops j = .stopping i op stage closing := by
      have here : ((run.state n).stops j).operation = some op := at_
      cases call : (run.state n).stops j with
      | stopping i op' stage closing =>
        rw [call] at here
        cases here
        exact ⟨i, stage, closing, rfl⟩
      | _ =>
        rw [call] at here
        cases here
    obtain ⟨i, stage, closing, call⟩ := stopping
    refine (lively (.stop j) i).leads
      (P := fun w => ∃ stage, w.stops j = .stopping i op stage closing)
      (Q := fun w => w.operation (.stop j) = none ∧ w.closes op = 1)
      (fun w => 2 * (w.stops j).rank + (w.children i).rank) ?_ ?_ ⟨stage, call⟩
    · rintro w reached ⟨stage, call⟩
      exact (reachable_sound reached).stop_goes_on call
    · rintro w a w' reached ⟨stage, call⟩ step
      have sound := reachable_sound reached
      obtain ⟨less, fewer⟩ := (step.cell sound i).childRank (sound.owned i)
      rcases (step.halt j).rank call with none | ⟨next, nearer | ⟨same, other⟩⟩
      · have here : w.operation (.stop j) = some op := congrArg StopCall.operation call
        rcases ends sound here step with still | over_
        · cases none.symm.trans still
        · exact Or.inl over_
      · have := rank_le_one (w'.children i)
        grind
      · rw [same]
        refine Or.inr ⟨⟨stage, call⟩, Nat.add_le_add_left less _, ?_⟩
        rintro (⟨mine, -⟩ | dies)
        · exact (other mine).elim
        · exact Nat.add_lt_add_left (fewer dies) _

private theorem Step.spawns (step : Step w (.spawn i) w') :
    (∃ op, w.starts i = .connected op) ∧ w'.children i ≠ .none := by
  cases step with
  | spawn at_ =>
    refine ⟨⟨_, at_⟩, ?_⟩
    show update w.children i .running i ≠ .none
    simp

variable {m : ℕ}

private theorem spawns_once {i' : ℕ} (first : run.act n = some (.spawn i))
    (second : run.act m = some (.spawn i')) : ¬n < m := by
  intro later
  obtain ⟨⟨op, here⟩, child⟩ := (run.step n _ first).spawns
  obtain ⟨⟨op', there⟩, -⟩ := (run.step m _ second).spawns
  have entered : ((run.state m).starts i).entered = true :=
    run.stays (P := fun w => (w.starts i).entered = true)
      (fun _ _ _ reached entered step =>
        (Step.cell step (reachable_sound reached) i).entered entered)
      (by rw [here]; rfl) (Nat.le_of_lt later)
  have same : i = i' :=
    (sound_at run m).orderly.alone i i' entered (congrArg StartCall.entered there)
  subst same
  have kept : (run.state m).children i ≠ .none :=
    run.stays (P := fun w => w.children i ≠ .none)
      (fun _ _ _ reached child step => (Step.cell step (reachable_sound reached) i).child child)
      child later
  have owned := (sound_at run m).owned i
  unfold World.cell at owned
  rw [there] at owned
  exact kept owned.1

private theorem Step.reads {result : Option ℕ} (step : Step w a w') (label : a = .client result) :
    w.supervisor.Client = result := by
  cases step with
  | client => exact Act.client.inj label
  | _ => cases label

private theorem closed_after (shuts : run.act n = some (.shut j)) (later : n < m) :
    (run.state m).supervisor.state = .closed := by
  refine run.stays (P := fun w => w.supervisor.state = .closed)
    (fun _ _ _ _ closed step => (Step.supervisor step).closed closed |>.1) ?_ later
  have step := run.step n _ shuts
  generalize run.state (n + 1) = after at step ⊢
  cases step with
  | shut => rfl

private theorem doomed_after (acts : run.act n = some a) (begins : a.begins = true)
    (at_ : ((run.state n).starts i).operation = some op) (later : n < m) : (run.state m).Doomed i :=
  run.stays (P := fun w => w.Doomed i)
    (fun _ _ _ reached doomed step => Step.doomed step (reachable_sound reached) doomed)
    (Step.dooms (run.step n a acts) (sound_at run n) begins at_) later

private theorem channel_cases (sound : w.Sound) (op : ℕ) :
    op < w.channels ∧ w.closes op = 0 ∧ (∃! c, w.operation c = some op) ∨
      op < w.channels ∧ w.closes op = 1 ∧ (∀ c, w.operation c ≠ some op) ∨
      w.channels ≤ op ∧ w.closes op = 0 ∧ ∀ c, w.operation c ≠ some op := by
  have orderly := sound.orderly
  by_cases done : w.supervisor.operationDone = some op
  · obtain ⟨bound, zero⟩ := orderly.pending op done
    obtain ⟨c, at_⟩ := orderly.held op done
    exact Or.inl ⟨bound, zero, c, at_, fun c' at' => orderly.single c' c op op at' at_⟩
  · have nobody : ∀ c, w.operation c ≠ some op := fun c at_ => done (orderly.holder c op at_)
    rcases Nat.lt_or_ge op w.channels with bound | bound
    · exact Or.inr (Or.inl ⟨bound, orderly.ended op bound done, nobody⟩)
    · exact Or.inr (Or.inr ⟨bound, orderly.unused op bound, nobody⟩)

/-- Under every interleaving of calls: one child is ever started; every operation has a channel
of its own, which is closed once, when the operation ends, and in a lively run it ends; a client
is only handed out between a start that succeeded and the next lock section of a `Stop` or a
`Close`; where such a lock section comes upon a start, the start returns an error, and by then
its client is closed and its child gone; after a `Close` no start succeeds. -/
theorem supervisor_contract (run : Execution supervisorSystem) :
    (∀ n m i i', run.act n = some (.spawn i) → run.act m = some (.spawn i') → n = m) ∧
    (∀ n op,
      op < (run.state n).channels ∧ (run.state n).closes op = 0 ∧
          (∃! c, (run.state n).operation c = some op) ∨
        op < (run.state n).channels ∧ (run.state n).closes op = 1 ∧
          (∀ c, (run.state n).operation c ≠ some op) ∨
        (run.state n).channels ≤ op ∧ (run.state n).closes op = 0 ∧
          ∀ c, (run.state n).operation c ≠ some op) ∧
    (Lively run → ∀ n c op, (run.state n).operation c = some op →
      ∃ m, n < m ∧ (run.state m).closes op = 1) ∧
    (∀ n i, run.act n = some (.client (some i)) →
      ∃ m, m < n ∧ run.act m = some (.succeed i) ∧
        ∀ k a, m < k → k < n → run.act k = some a → a.begins = false) ∧
    (∀ n, (run.state n).supervisor.state = .starting →
      ∃ i op, ((run.state n).starts i).operation = some op) ∧
    (∀ n a i op, run.act n = some a → a.begins = true →
      ((run.state n).starts i).operation = some op →
        (∀ m result, n < m → (run.state m).starts i = .returned result →
          result.isSome = true ∧
            ((run.state m).children i = .none ∧ (run.state m).clients i ≠ .opened ∨
              (run.state m).children i = .exited ∧ (run.state m).clients i = .closed)) ∧
        (Lively run → ∃ m e, n < m ∧ (run.state m).starts i = .returned (some e))) ∧
    (∀ n m j i, run.act n = some (.shut j) → n ≤ m → run.act m ≠ some (.succeed i)) := by
  refine ⟨?_, ?_, ?_, ?_, ?_, ?_, ?_⟩
  · intro n m i i' first second
    rcases Nat.lt_trichotomy n m with earlier | same | later
    · exact (spawns_once first second earlier).elim
    · exact same
    · exact (spawns_once second first later).elim
  · intro n op
    exact channel_cases (sound_at run n) op
  · intro lively n c op at_
    obtain ⟨m, later, -, closed⟩ := lively.ends at_
    exact ⟨m, later, closed⟩
  · intro n i acts
    have client : (run.state n).supervisor.Client = some i :=
      Step.reads (run.step n _ acts) rfl
    obtain ⟨m, a, earlier, act, rfl, between⟩ :=
      run.since (P := fun w => w.supervisor.Client = some i) (A := fun a => a = .succeed i)
        (B := fun a => a.begins = true) (by rw [run.init]; simp [ProcessSupervisor.Client])
        (fun w a w' step client => by
          rcases (Step.supervisor step).client client with succeeds | ⟨before, other⟩
          · exact Or.inl succeeds
          · exact Or.inr ⟨before, by simp [other]⟩) client
    grind
  · intro n starting
    exact (sound_at run n).orderly.starting starting
  · intro n a i op acts begins at_
    constructor
    · intro m result later returned
      exact (doomed_after acts begins at_ later).returned (sound_at run m) returned
    · intro lively
      obtain ⟨m, later, over_, -⟩ := lively.ends (c := .start i) at_
      have doomed := doomed_after acts begins at_ later
      have outside : ((run.state m).starts i).operation = none := over_
      unfold World.Doomed at doomed
      cases call : (run.state m).starts i with
      | returned result =>
        cases result with
        | none => simp [call, StartCall.early, StartCall.failing] at doomed
        | some e => exact ⟨m, e, later, call⟩
      | idle | rejected => simp [call, StartCall.early, StartCall.failing] at doomed
      | _ =>
        rw [call] at outside
        cases outside
  · intro n m j i shuts later succeeds
    rcases Nat.eq_or_lt_of_le later with same | later
    · rw [← same, shuts] at succeeds
      cases succeeds
    · have closed := closed_after shuts later
      cases ((Step.supervisor (run.step m _ succeeds)).closed closed).2

private structure Quiet (w : World) : Prop where
  starts : ∀ i, (w.starts i).operation = none
  stops : ∀ j, w.stops j = .idle ∨ w.stops j = .returned
  children : ∀ i, w.children i ≠ .killed

private theorem Quiet.still (quiet : Quiet w) (step : Step w a w') : ¬a.drives c i := by
  have outside {i : ℕ} {call : StartCall} (at_ : w.starts i = call) : call.operation = none := by
    rw [← at_]
    exact quiet.starts i
  have idle {j : ℕ} {call : StopCall} (at_ : w.stops j = call) :
      call = .idle ∨ call = .returned := by
    rw [← at_]
    exact quiet.stops j
  cases step with
  | reject | enter | pass | request | join | stop | stopBare => simp [Act.drives, Act.calls]
  | client | expire | exit => simp [Act.drives, Act.caller]
  | die killed => exact (quiet.children _ killed).elim
  | signal at_ | signalNone at_ | resume at_ | haltClose at_ | haltLook at_ | haltSignal at_
  | haltFailed at_ | haltGone at_ | haltLate at_ | haltKill at_ | haltKilled at_ | settle at_
  | shut at_ => simpa using idle at_
  | withdraw at_ | prepare at_ | late at_ | refuse at_ | connect at_ | abort at_ | spawn at_
  | probe at_ | succeed at_ | fail at_ | failBare at_ | cleanCancel at_ | cleanClose at_
  | cleanKill at_ | cleanWait at_ | leave at_ => cases outside at_

private theorem lively_of_quiet {final : World} {length : ℕ}
    (last : ∀ m, length ≤ m → run.state m = final) (quiet : Quiet final) : Lively run := by
  intro c i n always
  obtain ⟨a, w', drives, step⟩ := always (max n length) (Nat.le_max_left _ _)
  rw [last _ (Nat.le_max_right _ _)] at step
  exact (quiet.still step drives).elim

private def fresh : World :=
  ⟨⟨.new, none, none, false, none⟩, fun _ => .idle, fun _ => .idle, fun _ => none,
    fun _ => .none, fun _ => .none, 0, fun _ => 0⟩

private theorem interrupted_paths : ∃ w w', Path supervisorSystem free fresh
      [.start 0, .prepare 0, .connect 0, .spawn 0] w ∧ (w.starts 0).operation = some 0 ∧
    Path supervisorSystem free w [.begin_ 0 false, .signal 0, .probe 0, .fail 0, .clean 0,
      .clean 0, .clean 0, .die 0, .clean 0, .leave 0, .resume 0] w' ∧ Quiet w' := by
  refine ⟨_, _, .cons (Step.enter rfl rfl) trivial (.cons (Step.prepare rfl ⟨rfl, rfl⟩) trivial
    (.cons (Step.connect rfl rfl) trivial (.single (Step.spawn rfl) trivial))), rfl,
    .cons (Step.request rfl rfl) trivial (.cons (Step.signal rfl) trivial
    (.cons (Step.probe (e := some (.start (some .canceled))) rfl rfl) trivial
    (.cons (Step.fail rfl rfl) trivial (.cons (Step.cleanCancel rfl) trivial
    (.cons (Step.cleanClose rfl) trivial (.cons (Step.cleanKill rfl) trivial
    (.cons (Step.die rfl) trivial (.cons (Step.cleanWait rfl rfl) trivial
    (.cons (Step.leave rfl) trivial (.single (Step.resume rfl (Or.inl rfl)) trivial)))))))))),
    ⟨?_, ?_, ?_⟩⟩
  · intro i
    cases i <;> rfl
  · intro j
    cases j with
    | zero => exact Or.inr rfl
    | succ => exact Or.inl rfl
  · intro i
    cases i <;> exact Child.noConfusion

private theorem overtaken_path : ∃ w, Path supervisorSystem free fresh
    [.begin_ 0 true, .start 0, .prepare 0, .connect 0, .spawn 0, .probe 0, .succeed 0,
      .client (some 0), .shut 0] w :=
  ⟨_, .cons (Step.pass rfl (Or.inl rfl)) trivial (.cons (Step.enter rfl rfl) trivial
    (.cons (Step.prepare rfl ⟨rfl, rfl⟩) trivial (.cons (Step.connect rfl rfl) trivial
    (.cons (Step.spawn rfl) trivial (.cons (Step.probe (e := none) rfl rfl) trivial
    (.cons (Step.succeed rfl rfl) trivial (.cons Step.client trivial
    (.single (Step.shut rfl) trivial))))))))⟩

theorem supervisor_contract_samples :
    (∃ run : Execution supervisorSystem, Lively run ∧ run.act 4 = some (.begin_ 0 false) ∧
      ∃ m e, 4 < m ∧ (run.state m).starts 0 = .returned (some e) ∧
        ((run.state m).children 0 = .none ∧ (run.state m).clients 0 ≠ .opened ∨
          (run.state m).children 0 = .exited ∧ (run.state m).clients 0 = .closed)) ∧
    ∃ run : Execution supervisorSystem, run.act 7 = some (.client (some 0)) ∧
      run.act 8 = some (.shut 0) ∧ (∃ m, m < 7 ∧ run.act m = some (.succeed 0)) ∧
      ∀ m, 8 ≤ m → run.act m ≠ some (.succeed 1) := by
  constructor
  · obtain ⟨w, w', first, spawned, second, quiet⟩ := interrupted_paths
    obtain ⟨run, acts, middle, last⟩ := Execution.ofPath rfl first second
    have lively := lively_of_quiet last quiet
    obtain ⟨-, -, -, -, -, dooms, -⟩ := supervisor_contract run
    have at_ : ((run.state 4).starts 0).operation = some 0 := middle ▸ spawned
    obtain ⟨safe, returns⟩ := dooms 4 (.begin_ 0 false) 0 0 (acts 4) rfl at_
    obtain ⟨m, e, later, returned⟩ := returns lively
    exact ⟨run, lively, acts 4, m, e, later, returned, (safe m (some e) later returned).2⟩
  · obtain ⟨w, path⟩ := overtaken_path
    obtain ⟨run, acts, -, -⟩ := Execution.ofPath rfl path (.nil w)
    obtain ⟨-, -, -, clients, -, -, closed⟩ := supervisor_contract run
    obtain ⟨m, earlier, succeeds, -⟩ := clients 7 0 (acts 7)
    exact ⟨run, acts 7, acts 8, ⟨m, earlier, succeeds⟩,
      fun m later => closed 8 m 0 1 (acts 8) later⟩

end Contract

end Sre.Plugin
