import Mathlib.Data.List.Basic

/-! Procedures that ask an outside party, which keeps a state of its own and may answer
anything. What was asked and answered is written down. -/
namespace ContainerCP.Control

variable {State Request Response α β : Type}

structure Exchange (Request Response : Type) where
  request : Request
  response : Response

/-- The outside party: its answer to a request, and the state that it is in then. -/
abbrev Party (State Request Response : Type) := State → Request → Response × State

structure Session (State Request Response : Type) where
  state : State
  said : List (Exchange Request Response)

abbrev Asking (State Request Response α : Type) := StateM (Session State Request Response) α

def ask (party : Party State Request Response) (request : Request) : Asking State Request Response Response :=
  fun session => ((party session.state request).1,
    ⟨(party session.state request).2, session.said ++ [⟨request, (party session.state request).1⟩]⟩)

/-- From the state `start` of the party, the procedure says what `post` allows, whatever was
said before. -/
def Performs (procedure : Asking State Request Response α) (start : State)
    (post : α → List (Exchange Request Response) → State → Prop) : Prop :=
  ∀ said, ∃ events, (procedure ⟨start, said⟩).2.said = said ++ events ∧
    post (procedure ⟨start, said⟩).1 events (procedure ⟨start, said⟩).2.state

namespace Performs

variable {start : State} {post : α → List (Exchange Request Response) → State → Prop}

theorem pure {value : α} (h : post value [] start) :
    Performs (Pure.pure value : Asking State Request Response α) start post :=
  fun said => ⟨[], (List.append_nil said).symm, h⟩

theorem ask {party : Party State Request Response} {request : Request}
    {post : Response → List (Exchange Request Response) → State → Prop}
    (h : ∀ response state, party start request = (response, state) → post response [⟨request, response⟩] state) :
    Performs (Control.ask party request) start post :=
  fun _ => ⟨_, rfl, h _ _ rfl⟩

theorem mono {procedure : Asking State Request Response α} {mid : α → List (Exchange Request Response) → State → Prop}
    (h : Performs procedure start mid) (hPost : ∀ value events state, mid value events state → post value events state) :
    Performs procedure start post := by
  intro said
  obtain ⟨events, hSaid, hMid⟩ := h said
  exact ⟨events, hSaid, hPost _ _ _ hMid⟩

theorem bind {procedure : Asking State Request Response β} {next : β → Asking State Request Response α}
    {mid : β → List (Exchange Request Response) → State → Prop} (hFirst : Performs procedure start mid)
    (hNext : ∀ value events state, mid value events state →
      Performs (next value) state fun result more last => post result (events ++ more) last) :
    Performs (procedure >>= next) start post := by
  intro said
  obtain ⟨events, hSaid, hMid⟩ := hFirst said
  obtain ⟨more, hMore, hPost⟩ := hNext _ _ _ hMid (procedure ⟨start, said⟩).2.said
  refine ⟨events ++ more, ?_, hPost⟩
  rw [← List.append_assoc, ← hSaid]
  exact hMore

theorem ask_bind {party : Party State Request Response} {request : Request} {next : Response → Asking State Request Response α}
    (h : ∀ response state, party start request = (response, state) →
      Performs (next response) state fun result more last => post result (⟨request, response⟩ :: more) last) :
    Performs (Control.ask party request >>= next) start post := by
  have hAsk : Performs (Control.ask party request) start fun response events state =>
      events = [⟨request, response⟩] ∧ party start request = (response, state) :=
    Performs.ask fun _ _ hAnswer => ⟨rfl, hAnswer⟩
  refine Performs.bind hAsk ?_
  rintro response events state ⟨rfl, hAnswer⟩
  exact h response state hAnswer

theorem ite {condition : Prop} [Decidable condition] {yes no : Asking State Request Response α}
    (hYes : condition → Performs yes start post) (hNo : ¬condition → Performs no start post) :
    Performs (if condition then yes else no) start post := by
  split
  · exact hYes ‹_›
  · exact hNo ‹_›

end Performs

/-! ## Requests that need a licence -/

/-- Each request of a kind stands behind exchanges that license it. -/
def Licensed (needs : Request → Prop) (licence : List (Exchange Request Response) → Request → Prop)
    (events : List (Exchange Request Response)) : Prop :=
  ∀ before event behind, events = before ++ event :: behind → needs event.request → licence before event.request

namespace Licensed

variable {needs : Request → Prop} {licence weaker : List (Exchange Request Response) → Request → Prop}
  {events more : List (Exchange Request Response)}

/-- Without such a request nothing is to license. -/
theorem of_forall_not (h : ∀ event ∈ events, ¬needs event.request) : Licensed needs licence events := by
  rintro before event behind rfl hNeeds
  exact absurd hNeeds (h event (by simp))

/-- What is licensed on its own stays licensed behind other exchanges, where the licence grows
with them. -/
theorem append (h : Licensed needs weaker events) (hMore : Licensed needs licence more)
    (hGrow : ∀ before request, licence before request → weaker (events ++ before) request) :
    Licensed needs weaker (events ++ more) := by
  intro before event behind hEvents hNeeds
  rcases List.append_eq_append_iff.mp hEvents with ⟨front, rfl, hFront⟩ | ⟨rest, rfl, hRest⟩
  · exact hGrow front event.request (hMore front event behind hFront hNeeds)
  · cases rest with
    | nil =>
        have hAlone := hGrow [] event.request (hMore [] event behind hRest.symm hNeeds)
        simpa using hAlone
    | cons first rest =>
        obtain ⟨rfl, -⟩ := List.cons.inj hRest
        exact h before event rest rfl hNeeds

theorem concat (h : Licensed needs licence events) (event : Exchange Request Response)
    (hEvent : licence events event.request) : Licensed needs licence (events ++ [event]) := by
  intro before other behind hEvents hNeeds
  rcases List.eq_nil_or_concat behind with rfl | ⟨front, last, rfl⟩
  · obtain ⟨rfl, hOther⟩ := List.append_inj' hEvents rfl
    obtain ⟨rfl, -⟩ := List.cons.inj hOther
    exact hEvent
  · have hFront : events ++ [event] = (before ++ other :: front) ++ [last] := by
      rw [hEvents, List.concat_eq_append, List.append_assoc, List.cons_append]
    obtain ⟨rfl, -⟩ := List.append_inj' hFront rfl
    exact h before other front rfl hNeeds

theorem mono (h : Licensed needs licence events) (hWeaker : ∀ before request, licence before request → weaker before request) :
    Licensed needs weaker events :=
  fun before event behind hEvents hNeeds => hWeaker before event.request (h before event behind hEvents hNeeds)

end Licensed

end ContainerCP.Control
