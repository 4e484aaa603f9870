import StrayTouch.Proofs.Session.Step

/-!
The gestures of a session are independent. A command touches the gesture of its own handle and no
other, and what it finds there is what the calls on that handle have left, so that every gesture
fares as it would alone.
-/
namespace StrayTouch

variable {α : Type}

def Command.isBegin : Command → Bool
  | begin => true
  | call _ _ => false

/-- What answers a command once so many gestures have been begun: the number of the next one, or
the reply of the gesture that is called, if it has been begun. -/
inductive Response.Answers (begun : Nat) : Command → Response α → Prop
  | handle : Answers begun .begin (.handle begun)
  | reply {n : Nat} (h : n < begun) (c : Call) (r : Reply α) : Answers begun (.call n c) (.reply r)
  | unknownHandle {n : Nat} (h : begun ≤ n) (c : Call) : Answers begun (.call n c) .unknownHandle

/-- A call on one handle with its reply. Commands to others, and calls before the handle is there,
are none. -/
def exchange? (n : Nat) : Command × Response α → Option (Call × Reply α)
  | (.call m c, .reply r) => if m = n then some (c, r) else none
  | _ => none

/-- The calls on one handle with their replies, in their order. -/
def exchanges (n : Nat) (talk : List (Command × Response α)) : List (Call × Reply α) :=
  talk.filterMap (exchange? n)

variable [Scalar α]

namespace Session

/-- The gesture of a handle, which is untouched as long as it has not been begun. -/
def gesture (s : Session α) (n : Nat) : Gesture α :=
  (s.handles[n]?).getD s.engine.beginGesture

theorem step_engine (s : Session α) (c : Command) : (s.step c).2.1.engine = s.engine := by
  cases c with
  | begin => rw [step_begin]
  | call n c =>
    cases h : s.handles[n]? with
    | none => rw [step_call_of_none h]
    | some g => rw [step_call h]

theorem step_answers (s : Session α) (c : Command) :
    (s.step c).1.Answers s.handles.length c := by
  cases c with
  | begin => exact .handle
  | call n c =>
    cases h : s.handles[n]? with
    | none =>
      rw [step_call_of_none h]
      exact .unknownHandle (List.getElem?_eq_none_iff.mp h) c
    | some g =>
      rw [step_call h]
      exact .reply (List.getElem?_eq_some_iff.mp h).1 c _

theorem step_length_handles (s : Session α) (c : Command) :
    (s.step c).2.1.handles.length = s.handles.length + if c.isBegin then 1 else 0 := by
  cases c with
  | begin =>
    rw [step_begin]
    exact List.length_append
  | call n c =>
    cases h : s.handles[n]? with
    | none =>
      rw [step_call_of_none h]
      rfl
    | some g =>
      rw [step_call h]
      exact List.length_set

/-- A command that is no call on a handle leaves the gesture of that handle alone. -/
theorem gesture_step_of_none {s : Session α} {c : Command} {n : Nat}
    (h : exchange? n (c, (s.step c).1) = none) : (s.step c).2.1.gesture n = s.gesture n := by
  cases c with
  | begin =>
    rw [step_begin, gesture, gesture, List.getElem?_append]
    by_cases hn : n < s.handles.length
    · rw [if_pos hn]
    · rw [if_neg hn, List.getElem?_eq_none (Nat.not_lt.mp hn), List.getElem?_singleton]
      split <;> rfl
  | call m c =>
    cases hm : s.handles[m]? with
    | none => rw [step_call_of_none hm]
    | some g =>
      rw [step_call hm] at h ⊢
      have hne : m ≠ n := by
        intro he
        simp [exchange?, he] at h
      rw [gesture, gesture, List.getElem?_set_ne hne]

/-- A call on a handle does to its gesture what the engine does, whatever else there is. -/
theorem gesture_step_of_some {s : Session α} {c : Command} {n : Nat} {call : Call}
    {reply : Reply α} (h : exchange? n (c, (s.step c).1) = some (call, reply)) :
    s.engine.step (s.gesture n) call = (reply, (s.step c).2.1.gesture n) := by
  cases c with
  | begin => cases h
  | call m c =>
    cases hm : s.handles[m]? with
    | none =>
      rw [step_call_of_none hm] at h
      cases h
    | some g =>
      rw [step_call hm] at h ⊢
      obtain ⟨rfl, he⟩ : m = n ∧ (c, (s.engine.step g c).1) = (call, reply) := by
        simpa [exchange?] using h
      obtain ⟨rfl, rfl⟩ := Prod.mk.inj he
      have hbound := (List.getElem?_eq_some_iff.mp hm).1
      have hbefore : s.gesture m = g := by rw [gesture, hm, Option.getD_some]
      rw [hbefore, gesture, List.getElem?_set_self hbound, Option.getD_some]

theorem run_engine (s : Session α) (cs : List Command) : (s.run cs).2.1.engine = s.engine := by
  induction cs generalizing s with
  | nil => rfl
  | cons c cs ih => exact (ih _).trans (s.step_engine c)

theorem run_length (s : Session α) (cs : List Command) : (s.run cs).1.length = cs.length := by
  induction cs generalizing s with
  | nil => rfl
  | cons c cs ih => exact congrArg Nat.succ (ih _)

theorem run_length_handles (s : Session α) (cs : List Command) :
    (s.run cs).2.1.handles.length = s.handles.length + cs.countP Command.isBegin := by
  induction cs generalizing s with
  | nil => rfl
  | cons c cs ih =>
    rw [run, ih, step_length_handles, List.countP_cons]
    omega

theorem run_answers (s : Session α) (cs : List Command) {i : Nat} {c : Command} {r : Response α}
    (h : (cs.zip (s.run cs).1)[i]? = some (c, r)) :
    r.Answers (s.handles.length + (cs.take i).countP Command.isBegin) c := by
  induction cs generalizing s i with
  | nil => simp at h
  | cons first cs ih =>
    cases i with
    | zero =>
      simp only [run, List.zip_cons_cons, List.getElem?_cons_zero, Option.some.injEq] at h
      obtain ⟨rfl, rfl⟩ := Prod.mk.inj h
      exact s.step_answers first
    | succ i =>
      have hrest := ih (s.step first).2.1 (by simpa [run] using h)
      rw [step_length_handles] at hrest
      rw [List.take_succ_cons, List.countP_cons]
      convert hrest using 1
      omega

/-- Among whatever other commands, the calls on a handle are a run of the engine on its gesture. -/
theorem run_gesture (s : Session α) (cs : List Command) (n : Nat) :
    let talk := exchanges n (cs.zip (s.run cs).1)
    s.engine.run (s.gesture n) (talk.map Prod.fst) =
      (talk.map Prod.snd, (s.run cs).2.1.gesture n) := by
  induction cs generalizing s with
  | nil => rfl
  | cons c cs ih =>
    have hrest := ih (s.step c).2.1
    simp only [run, exchanges, List.zip_cons_cons, List.filterMap_cons, s.step_engine c]
      at hrest ⊢
    cases hx : exchange? n (c, (s.step c).1) with
    | none =>
      rw [gesture_step_of_none hx] at hrest
      exact hrest
    | some x =>
      have hstep := gesture_step_of_some hx
      simp only [List.map_cons, Engine.run, hstep, hrest]

/-- A session with one gesture is the engine on it. -/
theorem run_alone (e : Engine α) (g : Gesture α) (l : Listener) (calls : List Call) :
    ((⟨e, [g], l⟩ : Session α).run (calls.map (.call 0))).1 = (e.run g calls).1.map .reply ∧
      ((⟨e, [g], l⟩ : Session α).run (calls.map (.call 0))).2.1.handles = [(e.run g calls).2] := by
  induction calls generalizing g l with
  | nil => exact ⟨rfl, rfl⟩
  | cons c calls ih =>
    have hstep := step_call (s := ⟨e, [g], l⟩) (n := 0) (g := g) rfl c
    obtain ⟨hreplies, hhandles⟩ := ih (e.step g c).2 (inform l (e.step g c).1).1
    simp only [List.map_cons, run, hstep, Engine.run, List.set_cons_zero]
    exact ⟨congrArg (List.cons _) hreplies, hhandles⟩

/-- Over any commands on any number of gestures, each handle gets the number of gestures begun
before it, and only calls on handles that are not there yet go unanswered. The calls on one handle
have the replies that they have when they are made alone, after one another, in a new session of
the same engine with whatever listener, and they leave the same gesture. -/
theorem handles_independent (e : Engine α) (l other : Listener) (cs : List Command) :
    let responses := ((start e l).run cs).1
    let last := ((start e l).run cs).2.1
    last.engine = e ∧ last.handles.length = cs.countP Command.isBegin ∧
    responses.length = cs.length ∧
    (∀ (i : Nat) (c : Command) (r : Response α), (cs.zip responses)[i]? = some (c, r) →
      r.Answers ((cs.take i).countP Command.isBegin) c) ∧
    ∀ (n : Nat) (g : Gesture α), last.handles[n]? = some g →
      let talk := exchanges n (cs.zip responses)
      let alone := (start e other).run (.begin :: talk.map fun x => .call 0 x.1)
      alone.1 = .handle 0 :: talk.map (fun x => .reply x.2) ∧ alone.2.1.handles = [g] := by
  intro responses last
  refine ⟨run_engine _ cs, ?_, run_length _ cs, ?_, ?_⟩
  · exact (run_length_handles (start e l) cs).trans (Nat.zero_add _)
  · intro i c r h
    have hr := run_answers (start e l) cs h
    rwa [start, List.length_nil, Nat.zero_add] at hr
  · intro n g hg talk alone
    have hrun : e.run e.beginGesture (talk.map Prod.fst) = (talk.map Prod.snd, last.gesture n) :=
      run_gesture (start e l) cs n
    have hlast : last.gesture n = g := by rw [gesture, hg, Option.getD_some]
    obtain ⟨hreplies, hhandles⟩ :=
      run_alone e e.beginGesture other (talk.map Prod.fst)
    rw [hrun, List.map_map, List.map_map] at hreplies
    rw [hrun, hlast, List.map_map] at hhandles
    exact ⟨congrArg (List.cons (Response.handle 0)) hreplies, hhandles⟩

end Session

end StrayTouch
