import DomainEvents.Error
import Mathlib.Data.List.Chain

/-!
# What errors tell of their causes

An error may hold another one, that one a third, and so on inwards. Whoever has an error sees of
these what its message says, and what can be reached by `AnyError.source`. The two do not agree on
what there is to see: some errors hold one that their source does not lead to, and some stand for
the one inside and lead to what caused that.

`Layer.nest` lists an error and all that are held in it, whether a source leads there or not, and
`Layer.shown` says which of these the chain of causes passes. Every message ends with the message of
the error inside (`Layer.message_of_inner`), and that is all that messages need for the chain: a
step goes one layer inwards, or two where the outer one says the same as the one in between.
-/

namespace DomainEvents

/-! ## Layers -/

/-- An error that holds another one or is held in one. -/
inductive Layer where
  /-- one that a chain of causes may pass -/
  | error (e : AnyError)
  /-- a payload error, which is always held in a handler error that stands for it -/
  | payload (e : PayloadError)
deriving DecidableEq, Repr

/-- An error of another type as one of any type. -/
def Cause.toAny : Cause → AnyError
  | .plain message => .plain message
  | .bus error => .bus error

@[simp] theorem Cause.message_toAny (inner : Cause) : inner.toAny.message = inner.message := by
  cases inner <;> rfl

/-- How an error deals with the one inside. -/
inductive Wrapping where
  /-- it tells of it at the end of its message, and names it as its cause -/
  | tells
  /-- it stands for it: it says the same, and has the same cause -/
  | standsFor
  /-- it tells of it at the end of its message only -/
  | keeps
deriving DecidableEq, Repr

namespace Layer

/-- The text of an error. -/
def message : Layer → String
  | .error e => e.message
  | .payload e => e.message

/-- What caused an error. -/
def source : Layer → Option AnyError
  | .error e => e.source
  | .payload e => e.source

@[simp] theorem source_error (e : AnyError) : (Layer.error e).source = e.source := rfl

/-- The error inside. -/
def inner? : Layer → Option Layer
  | .error (.bus (.handler _ source)) => some (.error (.handler source))
  | .error (.bus (.persistence _ source)) => some (.error (.store source))
  | .error (.bus (.validation source)) => some (.error (.validation source))
  | .error (.bus (.replay _ _ source)) => some (.error (.bus source))
  | .error (.handler (.custom inner)) => some (.error inner.toAny)
  | .error (.handler (.payload inner)) => some (.payload inner)
  | .error (.store (.custom inner)) => some (.error inner.toAny)
  | .payload (.encode _ cause) => some (.error (.plain cause))
  | .payload (.decode _ cause) => some (.error (.plain cause.message))
  | _ => none

/-- How an error deals with the one inside, if there is one. -/
def wrapping : Layer → Wrapping
  | .error (.handler (.payload _)) | .error (.store (.custom _)) => .standsFor
  | .error (.handler (.custom _)) => .keeps
  | _ => .tells

/-- Grows with every layer around an error. -/
def rank : Layer → Nat
  | .error e => 2 * e.size
  | .payload _ => 3

/-- The one inside is the smaller one. -/
theorem rank_inner {l m : Layer} (h : l.inner? = some m) : m.rank < l.rank := by
  rw [inner?.eq_def] at h
  split at h <;> cases h
  case h_5 inner =>
    cases inner <;> simp only [rank, AnyError.size, HandlerError.size, Cause.size, Cause.toAny] <;>
      omega
  case h_7 inner =>
    cases inner <;> simp only [rank, AnyError.size, StoreError.size, Cause.size, Cause.toAny] <;>
      omega
  all_goals
    simp only [rank, AnyError.size, BusError.size, HandlerError.size]
    omega

/-- An error and all that are held in it, from the outside in. -/
def nest (l : Layer) : List Layer :=
  match _h : l.inner? with
  | none => [l]
  | some m => l :: m.nest
termination_by l.rank
decreasing_by exact rank_inner _h

theorem nest_of_none {l : Layer} (h : l.inner? = none) : l.nest = [l] := by
  rw [nest]
  split <;> simp_all

theorem nest_of_some {l m : Layer} (h : l.inner? = some m) : l.nest = l :: m.nest := by
  rw [nest]
  split <;> simp_all

theorem head?_nest (l : Layer) : l.nest.head? = some l := by
  rw [nest]
  split <;> rfl

/-- Which errors of a nest its chain of causes shows: it leaves out what another one stands for, and
ends at one that keeps what it holds for itself. -/
def shown : List Layer → List Layer
  | [] => []
  | [l] => [l]
  | l :: m :: rest =>
    match l.wrapping with
    | .tells => l :: shown (m :: rest)
    | .standsFor => l :: shown rest
    | .keeps => [l]

theorem shown_of_tells {l : Layer} (h : l.wrapping = .tells) (rest : List Layer) :
    shown (l :: rest) = l :: shown rest := by
  cases rest with
  | nil => rfl
  | cons m rest => rw [shown, h]

theorem shown_of_standsFor {l : Layer} (h : l.wrapping = .standsFor) (m : Layer)
    (rest : List Layer) : shown (l :: m :: rest) = l :: shown rest := by
  rw [shown, h]

theorem shown_of_keeps {l : Layer} (h : l.wrapping = .keeps) (rest : List Layer) :
    shown (l :: rest) = [l] := by
  cases rest with
  | nil => rfl
  | cons m rest => rw [shown, h]

/-! ## Messages -/

/-- The message of an error ends with the one of the error inside. -/
theorem message_of_inner {l m : Layer} (h : l.inner? = some m) :
    ∃ before, l.message = before ++ m.message := by
  rw [inner?.eq_def] at h
  split at h <;> cases h
  case h_1 name source => exact ⟨"Handler " ++ name ++ " failed: ", rfl⟩
  case h_2 operation source => exact ⟨"Event store " ++ operation.text ++ " failed: ", rfl⟩
  case h_3 source => exact ⟨"Event validation failed: ", rfl⟩
  case h_4 replayed total source =>
    exact ⟨"Replay stopped after " ++ toString replayed ++ " of " ++ toString total ++ " events: ",
      rfl⟩
  case h_5 inner =>
    refine ⟨"Handler failed with custom error: ", ?_⟩
    rw [message, message, Cause.message_toAny]
    rfl
  case h_6 inner => exact ⟨"", String.empty_append.symm⟩
  case h_7 inner =>
    refine ⟨"", ?_⟩
    rw [message, message, Cause.message_toAny, String.empty_append]
    rfl
  case h_8 name cause => exact ⟨"Failed to encode payload for " ++ name ++ ": ", rfl⟩
  case h_9 name cause => exact ⟨"Failed to decode payload of " ++ name ++ ": ", rfl⟩

/-- What an error stands for says the same and has the same cause, and names that cause itself. -/
theorem of_standsFor {l : Layer} (h : l.wrapping = .standsFor) :
    ∃ m, l.inner? = some m ∧ m.message = l.message ∧ m.source = l.source ∧
      m.inner? = l.source.map .error := by
  cases l with
  | payload e => cases h
  | error e =>
    cases e with
    | handler e =>
      cases e with
      | payload inner => exact ⟨_, rfl, rfl, rfl, by cases inner <;> rfl⟩
      | _ => cases h
    | store e =>
      cases e with
      | custom inner =>
        refine ⟨_, rfl, ?_⟩
        cases inner with
        | plain => exact ⟨rfl, rfl, rfl⟩
        | bus e => exact ⟨rfl, rfl, by cases e <;> rfl⟩
      | backend => cases h
    | _ => cases h

/-- An error that tells of the one inside names it as its cause. -/
theorem of_tells {e : AnyError} (h : wrapping (.error e) = .tells) :
    inner? (.error e) = e.source.map .error := by
  cases e with
  | bus e => cases e <;> rfl
  | handler e => cases e <;> first | rfl | cases h
  | store e => cases e <;> first | rfl | cases h
  | validation => rfl
  | plain => rfl

/-- An error that keeps the one inside for itself names no cause. -/
theorem of_keeps {e : AnyError} (h : wrapping (.error e) = .keeps) :
    e.source = none := by
  cases e with
  | bus e => cases h
  | handler e => cases e <;> first | rfl | cases h
  | store e => cases e <;> cases h
  | validation => rfl
  | plain => rfl

/-! ## Nests -/

/-- What holds between an error and the one inside holds all the way through a nest. -/
theorem isChain_nest {R : Layer → Layer → Prop} (step : ∀ l m, l.inner? = some m → R l m)
    (l : Layer) : l.nest.IsChain R := by
  induction l using nest.induct with
  | case1 l h =>
    rw [nest_of_none h]
    exact List.isChain_singleton l
  | case2 l m h ih =>
    rw [nest_of_some h, List.isChain_cons]
    refine ⟨?_, ih⟩
    intro k hk
    obtain rfl : m = k := by simpa [head?_nest] using hk
    exact step l m h

/-- The innermost error of a nest holds no other. -/
theorem inner_of_last {l last : Layer} (h : l.nest.getLast? = some last) : last.inner? = none := by
  induction l using nest.induct with
  | case1 l none =>
    rw [nest_of_none none] at h
    obtain rfl : l = last := by simpa using h
    exact none
  | case2 l m some ih =>
    rw [nest_of_some some, List.getLast?_cons_of_ne_nil] at h
    · exact ih h
    · intro empty
      simpa [empty] using head?_nest m

end Layer

/-! ## Chains -/

namespace AnyError

theorem causes_of_none {e : AnyError} (h : e.source = none) : e.causes = [] := by
  rw [causes]
  split <;> simp_all

theorem causes_of_some {e s : AnyError} (h : e.source = some s) : e.causes = s :: s.causes := by
  rw [causes]
  split <;> simp_all

/-- What holds between an error and its cause holds all along a chain. -/
theorem isChain_causes {R : AnyError → AnyError → Prop} (step : ∀ e s, e.source = some s → R e s)
    (e : AnyError) : (e :: e.causes).IsChain R := by
  induction e using causes.induct with
  | case1 e h =>
    rw [causes_of_none h]
    exact List.isChain_singleton e
  | case2 e s h ih =>
    rw [causes_of_some h]
    exact List.isChain_cons_cons.mpr ⟨step e s h, ih⟩

/-- A chain goes on for as long as there is a cause. -/
theorem source_of_last {e last : AnyError} (h : (e :: e.causes).getLast? = some last) :
    last.source = none := by
  induction e using causes.induct with
  | case1 e none =>
    rw [causes_of_none none] at h
    obtain rfl : e = last := by simpa using h
    exact none
  | case2 e s some ih =>
    rw [causes_of_some some, List.getLast?_cons_cons] at h
    exact ih h

/-- A chain is no longer than the error is big. -/
theorem length_causes (e : AnyError) : e.causes.length < e.size := by
  induction e using causes.induct with
  | case1 e h =>
    rw [causes_of_none h]
    cases e with
    | bus e => cases e <;> simp [size, BusError.size]
    | handler e => cases e <;> simp [size, HandlerError.size]
    | store e => cases e <;> simp [size, StoreError.size]
    | validation => simp [size]
    | plain => simp [size]
  | case2 e s h ih =>
    have smaller := size_source h
    rw [causes_of_some h, List.length_cons]
    omega

/-- The message of an error ends with the one of its cause. -/
theorem message_of_source {e s : AnyError} (h : e.source = some s) :
    ∃ before, e.message = before ++ s.message := by
  cases wrapping : Layer.wrapping (.error e) with
  | tells =>
    refine Layer.message_of_inner (l := .error e) (m := .error s) ?_
    rw [Layer.of_tells wrapping, h]
    rfl
  | keeps =>
    rw [Layer.of_keeps wrapping] at h
    cases h
  | standsFor =>
    -- the cause is two layers inside, and the layer between says the same as the outer one
    obtain ⟨m, -, same, -, next⟩ := Layer.of_standsFor wrapping
    have cause : m.inner? = some (.error s) := by
      rw [next, Layer.source_error, h]
      rfl
    obtain ⟨before, ends⟩ := Layer.message_of_inner cause
    exact ⟨before, same.symm.trans ends⟩

/-- The chain of causes of an error shows of its nest what it is to show. -/
theorem shown_nest (e : AnyError) :
    Layer.shown (Layer.error e).nest = (e :: e.causes).map .error := by
  induction e using causes.induct with
  | case1 e h =>
    rw [causes_of_none h]
    cases wrapping : Layer.wrapping (.error e) with
    | tells =>
      have alone : Layer.inner? (.error e) = none := by
        rw [Layer.of_tells wrapping, h]
        rfl
      rw [Layer.nest_of_none alone]
      rfl
    | keeps =>
      obtain ⟨rest, nest⟩ := List.head?_eq_some_iff.mp (Layer.head?_nest (.error e))
      rw [nest, Layer.shown_of_keeps wrapping]
      rfl
    | standsFor =>
      obtain ⟨m, inner, -, -, next⟩ := Layer.of_standsFor wrapping
      have alone : m.inner? = none := by
        rw [next, Layer.source_error, h]
        rfl
      rw [Layer.nest_of_some inner, Layer.nest_of_none alone, Layer.shown_of_standsFor wrapping]
      rfl
  | case2 e s h ih =>
    rw [causes_of_some h, List.map_cons, ← ih]
    cases wrapping : Layer.wrapping (.error e) with
    | tells =>
      have inner : Layer.inner? (.error e) = some (.error s) := by
        rw [Layer.of_tells wrapping, h]
        rfl
      rw [Layer.nest_of_some inner, Layer.shown_of_tells wrapping]
    | keeps =>
      rw [Layer.of_keeps wrapping] at h
      cases h
    | standsFor =>
      obtain ⟨m, inner, -, -, next⟩ := Layer.of_standsFor wrapping
      have cause : m.inner? = some (.error s) := by
        rw [next, Layer.source_error, h]
        rfl
      rw [Layer.nest_of_some inner, Layer.nest_of_some cause, Layer.shown_of_standsFor wrapping]

end AnyError

/-- **The message of an error never hides its causes.** The chain of causes of a bus error leads
from each error to its cause and comes to an end, which is no further away than the error is big;
and every message in it ends with the next one. Apart from the chain there is the nest of all the
errors that are held in each other, to the innermost one, and there too each message ends with the
next one. The chain passes through the nest from the outside in. Where it comes to an error that
stands for the one inside, which is a payload error of a handler or a store's error of another type,
it goes on with the cause of the one inside. So that one is left out, and it says just the same.
Nothing else is left out, until the chain ends at the innermost error, or at a handler's error of
another type, which keeps what it holds for itself. -/
theorem causes_are_told (error : BusError) :
    let whole := AnyError.bus error
    let chain := whole :: whole.causes
    let nest := (Layer.error whole).nest
    (chain.IsChain (fun a b => a.source = some b) ∧
        (∀ last, chain.getLast? = some last → last.source = none) ∧
        whole.causes.length < error.size) ∧
      chain.IsChain (fun a b => ∃ before, a.message = before ++ b.message) ∧
      (nest.head? = some (.error whole) ∧ nest.IsChain (fun l m => l.inner? = some m) ∧
        (∀ last, nest.getLast? = some last → last.inner? = none)) ∧
      nest.IsChain (fun l m => ∃ before, l.message = before ++ m.message) ∧
      chain.map .error = Layer.shown nest ∧
      ∀ a ∈ chain, Layer.wrapping (.error a) = .standsFor →
        ∃ m, Layer.inner? (.error a) = some m ∧ m.message = a.message ∧ m.source = a.source := by
  intro whole chain nest
  refine ⟨⟨?_, fun _ => AnyError.source_of_last, whole.length_causes⟩, ?_, ⟨?_, ?_, ?_⟩, ?_, ?_, ?_⟩
  · exact whole.isChain_causes fun _ _ h => h
  · exact whole.isChain_causes fun _ _ => AnyError.message_of_source
  · exact Layer.head?_nest _
  · exact Layer.isChain_nest (fun _ _ h => h) _
  · exact fun _ => Layer.inner_of_last
  · exact Layer.isChain_nest (fun _ _ => Layer.message_of_inner) _
  · exact whole.shown_nest.symm
  · intro a _ standsFor
    obtain ⟨m, inner, message, source, -⟩ := Layer.of_standsFor standsFor
    exact ⟨m, inner, message, source⟩

/-- A store has failed with the error of a bus of its own, whose handler has failed with an error of
another type. The chain leaves out the error of that bus, which the store's error stands for, and
ends before the error that the handler's keeps. -/
theorem causes_are_told_stored :
    let handler : HandlerError := .custom (.plain "disk full")
    let store : StoreError := .custom (.bus (.handler "audit" handler))
    let whole := AnyError.bus (.persistence .save store)
    whole.causes = [.store store, .handler handler] ∧
      (Layer.error whole).nest = [.error whole, .error (.store store),
        .error (.bus (.handler "audit" handler)), .error (.handler handler),
        .error (.plain "disk full")] ∧
      (AnyError.store store).message = (AnyError.bus (.handler "audit" handler)).message ∧
      ∃ before, (AnyError.store store).message = before ++ (AnyError.handler handler).message := by
  intro handler store whole
  have nest : (Layer.error whole).nest = [.error whole, .error (.store store),
      .error (.bus (.handler "audit" handler)), .error (.handler handler),
      .error (.plain "disk full")] := by
    rw [Layer.nest_of_some (by rfl), Layer.nest_of_some (by rfl), Layer.nest_of_some (by rfl),
      Layer.nest_of_some (by rfl), Layer.nest_of_none (by rfl)]
    rfl
  obtain ⟨-, messages, -, -, shows, stands⟩ := causes_are_told (.persistence .save store)
  have causes : whole.causes = [.store store, .handler handler] := by
    rw [show Layer.error (.bus (.persistence .save store)) = .error whole from rfl, nest] at shows
    exact (List.cons.inj ((List.map_inj_right fun _ _ => Layer.error.inj).mp shows)).2
  rw [show AnyError.bus (.persistence .save store) = whole from rfl, causes] at messages stands
  obtain ⟨m, inner, same, -⟩ := stands (.store store) (by simp) rfl
  obtain rfl := Option.some.inj inner
  have next := (List.isChain_cons_cons.mp messages).2
  exact ⟨causes, nest, same.symm, (List.isChain_cons_cons.mp next).1⟩

end DomainEvents
