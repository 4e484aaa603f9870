import StrayTouch.CommandLine.Run
import StrayTouch.Proofs.Config.Refusal
import StrayTouch.Proofs.Engine.Defaults

/-!
Which faults of a configuration and of a recording escape from a run. Most are reported in the log;
the others can be traced to a number that has no double or no whole part, or to a value that is too
deep to be shown.
-/
namespace StrayTouch

variable {given : Value → Prop} {f : Fault}

/-- The faults that escape from a run and come from one of the values given. -/
inductive Fault.Slips (given : Value → Prop) : Fault → Prop
  | beyond {n : Int} (hn : given (.int n)) (h : Binary64.overflowBound ≤ n.natAbs) :
      Slips given .wholeTooLarge
  | infinite {x : Float} {negative : Bool} (hx : given (.atom (.float x)))
      (h : Binary64.form x = .infinite negative) : Slips given .infinityNotWhole
  | deep {v : Value} {f : Fault} (hv : given v)
      (ho : v.obstacle? Value.depthLimit = some .tooDeep) (hf : f.kind = .depth) : Slips given f

/-- A fault is reported, or it escapes and can be traced to one of the values given. -/
def Fault.Traced (given : Value → Prop) (f : Fault) : Prop :=
  f.isReported = true ∨ f.Slips given

namespace Fault

theorem Slips.imp {wider : Value → Prop} (hw : ∀ v, given v → wider v) (h : f.Slips given) :
    f.Slips wider := by
  cases h with
  | beyond hn h => exact .beyond (hw _ hn) h
  | infinite hx h => exact .infinite (hw _ hx) h
  | deep hv ho hf => exact .deep (hw _ hv) ho hf

theorem isReported_of_blamesRow (h : f.blamesRow = true) : f.isReported = true := by
  unfold isReported
  unfold blamesRow at h
  rcases Bool.or_eq_true_iff.mp h with hk | hk
  · rw [beq_iff_eq.mp hk]
    rfl
  · rw [beq_iff_eq.mp hk]
    rfl

/-- A fault whose kind is reported escapes only where it has to show a value that is too deep. -/
theorem traced_of_ownKind (hk : f.ownKind.isReported = true)
    (hs : ∀ v ∈ f.shownValues, v.obstacle? Value.depthLimit = some .tooDeep → given v) :
    f.Traced given := by
  rcases f.kind_cases with hf | ⟨v, hv, o, ho, hf⟩
  · exact .inl (by rw [isReported, hf, hk])
  · cases o with
    | tooLong => exact .inl (by rw [isReported, hf]; rfl)
    | tooDeep => exact .inr (.deep (hs v hv ho) ho hf)

end Fault

namespace Value

theorem obstacle?_atom_ne_tooDeep (a : Atom) :
    (atom a).obstacle? depthLimit ≠ some .tooDeep := by
  unfold depthLimit obstacle?
  split <;> simp

theorem toReal_traced {v : Value} (hv : given v) (h : v.toReal (α := Float) = .error f) :
    f.Traced given := by
  rcases toReal_eq_error h with hb | ⟨rfl, n, rfl, hn⟩
  · exact .inl (Fault.isReported_of_blamesRow hb)
  · have hlarge := (Binary64.nearest?_eq_none_iff one_pos).mp hn
    exact .inr (.beyond hv (by simpa using hlarge))

theorem readWhole_isReported {base : Nat} {text : Atom} {cs : List Char}
    (h : readWhole base text cs = .error f) : f.isReported = true := by
  unfold readWhole at h
  split at h <;> cases h <;> rfl

theorem toWhole_traced {v : Value} (hv : given v) (h : v.toWhole = .error f) :
    f.Traced given := by
  unfold toWhole at h
  split at h
  case h_3 x =>
    split at h
    next => cases h
    next hx =>
      cases h
      exact .inr (.infinite hv hx)
    next =>
      cases h
      exact .inl rfl
  case h_5 => exact .inl (readWhole_isReported h)
  case h_6 => exact .inl (readWhole_isReported h)
  case h_7 => exact .inl (readWhole_isReported h)
  all_goals cases h <;> exact .inl rfl

mutual

theorem isReported_of_toName_eq_error : ∀ {v : Value}, v.toName = .error f → f.isReported = true
  | .tuple items, h => by
    rcases bind_eq_error_iff.mp h with h | ⟨_, _, h⟩
    · exact isReported_of_toNames_eq_error h
    · cases h
  | .knot _ v, h => by
    rcases bind_eq_error_iff.mp h with h | ⟨_, _, h⟩
    · exact isReported_of_toName_eq_error h
    · exact Except.error.inj h ▸ rfl
  | .list _, h | .set _, h | .map _, h | .again _, h => Except.error.inj h ▸ rfl

theorem isReported_of_toNames_eq_error : ∀ {vs : List Value}, toNames vs = .error f →
    f.isReported = true
  | v :: vs, h => by
    rcases bind_eq_error_iff.mp h with h | ⟨_, _, h⟩
    · exact isReported_of_toName_eq_error h
    rcases bind_eq_error_iff.mp h with h | ⟨_, _, h⟩
    · exact isReported_of_toNames_eq_error h
    · cases h

end

end Value

/-- A configuration is refused for something that is reported, or for one of the values given. -/
theorem Refusal.traced (h : Refusal Float given f) : f.Traced given := by
  cases h with
  | own hk hs =>
    refine Fault.traced_of_ownKind (by rw [hk]; rfl) fun v hv ho => hs v hv ?_
    rw [ho]
    rfl
  | beyond hn hbig =>
    have hlarge := (Binary64.nearest?_eq_none_iff one_pos).mp hbig
    exact .inr (.beyond hn (by simpa using hlarge))
  | unscanned _ _ hi => exact .inl (Value.items_eq_error hi ▸ rfl)

/-- The calls of a recording whose numbers are among the values given. -/
inductive Call.ReadFrom (given : Value → Prop) : Call → Prop
  | point (id : Value) {x y size : Value} (time : Int) (hx : given x) (hy : given y)
      (hs : size.isNull = false → given size) :
      ReadFrom given (.point id ⟨x, y, .int time, size⟩)
  | up {id : Value} (hid : id.obstacle? Value.depthLimit = some .tooDeep → given id) :
      ReadFrom given (.up id)

/-- A script of calls that read from the values given, up to a fault that can be traced to one of
them. -/
structure Script.ReadFrom (s : Script) (given : Value → Prop) : Prop where
  calls : ∀ c ∈ s.calls, c.ReadFrom given
  fault : ∀ f, s.fault? = some f → f.Traced given

namespace Script

variable {a b : Script}

theorem readFrom_empty : empty.ReadFrom given :=
  ⟨by simp [empty], by simp [empty]⟩

theorem readFrom_stop (h : f.Traced given) : (stop f).ReadFrom given :=
  ⟨by simp [stop], fun _ he => Option.some.inj he ▸ h⟩

theorem readFrom_single {c : Call} (h : c.ReadFrom given) : (single c).ReadFrom given :=
  ⟨List.forall_mem_singleton.mpr h, by simp [single]⟩

theorem ReadFrom.followedBy (ha : a.ReadFrom given) (hb : b.ReadFrom given) :
    (a.followedBy b).ReadFrom given := by
  unfold Script.followedBy
  cases hf : a.fault? with
  | some f => exact ⟨ha.calls, fun _ he => Option.some.inj he ▸ ha.fault f hf⟩
  | none => exact ⟨List.forall_mem_append.mpr ⟨ha.calls, hb.calls⟩, hb.fault⟩

theorem readFrom_sequence {scripts : List Script} (h : ∀ s ∈ scripts, s.ReadFrom given) :
    (sequence scripts).ReadFrom given := by
  induction scripts with
  | nil => exact readFrom_empty
  | cons s rest ih =>
    obtain ⟨hs, hrest⟩ := List.forall_mem_cons.mp h
    exact hs.followedBy (ih hrest)

theorem readFrom_ofPoint (index : Nat) (id : Value) {point : Value}
    (hg : ∀ w, point.Reaches w → given w) : (ofPoint index id point).ReadFrom given := by
  have hshape : (stop (.pointShape index point)).ReadFrom given := by
    refine readFrom_stop (Fault.traced_of_ownKind rfl fun v hv _ => ?_)
    exact hg v (List.mem_singleton.mp hv ▸ .refl point)
  unfold ofPoint
  split
  next x y t rest hp =>
    have hitem : ∀ v ∈ x :: y :: t :: rest, given v := by
      intro v hv
      refine hg v ?_
      unfold Value.sequence? at hp
      split at hp
      next items hi =>
        obtain rfl := Option.some.inj hp
        exact Value.reaches_item (Value.items_of_list hi) hv
      next items hi =>
        obtain rfl := Option.some.inj hp
        exact Value.reaches_item (Value.items_of_tuple hi) hv
      next => cases hp
    split
    next f ht => exact readFrom_stop (Value.toWhole_traced (hitem t (by simp)) ht)
    next time _ =>
      refine readFrom_single (.point id time (hitem x (by simp)) (hitem y (by simp)) ?_)
      intro hn
      cases rest with
      | nil => cases hn
      | cons size _ => exact hitem size (by simp)
  next => exact hshape

theorem readFrom_ofStroke (index : Nat) {stroke : Value}
    (hg : ∀ w, stroke.Reaches w → given w) : (ofStroke index stroke).ReadFrom given := by
  have hshape : (stop (.strokeShape index)).ReadFrom given := readFrom_stop (.inl rfl)
  have hid : let id := (stroke.field? "contact_id").getD (.int index)
      id.obstacle? Value.depthLimit = some .tooDeep → given id := by
    intro id ho
    cases hf : stroke.field? "contact_id" with
    | none =>
      have hname : id = .int index := congrArg (·.getD (.int index)) hf
      exact absurd (hname ▸ ho) (Value.obstacle?_atom_ne_tooDeep _)
    | some v =>
      have hname : id = v := congrArg (·.getD (.int index)) hf
      exact hname ▸ hg v (Value.reaches_field? hf)
  unfold ofStroke
  split
  next =>
    simp only
    split
    next points hp =>
      refine ReadFrom.followedBy (readFrom_sequence ?_) (readFrom_single (.up hid))
      refine List.forall_mem_map.mpr fun point hpoint => readFrom_ofPoint _ _ fun w hw => ?_
      cases hf : stroke.field? "points" with
      | none =>
        rw [hf] at hp
        cases hp
        cases hpoint
      | some v =>
        rw [hf] at hp
        have hr := (Value.reaches_field? hf).trans
          (Value.reaches_item (Value.items_of_list hp) hpoint)
        exact hg w (hr.trans hw)
    next => exact hshape
  next => exact hshape

theorem readFrom_ofStrokes (index : Nat) {strokes : List Value}
    (hg : ∀ s ∈ strokes, ∀ w, s.Reaches w → given w) :
    (ofStrokes index strokes).ReadFrom given := by
  induction strokes generalizing index with
  | nil => exact readFrom_empty
  | cons s rest ih =>
    obtain ⟨hs, hrest⟩ := List.forall_mem_cons.mp hg
    exact (readFrom_ofStroke index hs).followedBy (ih _ hrest)

end Script

theorem Fault.traced_of_atoms (hk : f.ownKind.isReported = true)
    (hs : ∀ v ∈ f.shownValues, ∃ a, v = .atom a) : f.Traced given := by
  refine traced_of_ownKind hk fun v hv ho => ?_
  obtain ⟨a, rfl⟩ := hs v hv
  exact absurd ho (Value.obstacle?_atom_ne_tooDeep a)

theorem Sample.toPoint_traced {x y size : Value} {time : Int} (hx : given x) (hy : given y)
    (hs : size.isNull = false → given size)
    (h : (⟨x, y, .int time, size⟩ : Sample).toPoint (α := Float) = .error f) :
    f.Traced given := by
  rcases bind_eq_error_iff.mp h with hf | ⟨_, _, hf⟩
  · exact Value.toReal_traced hx hf
  rcases bind_eq_error_iff.mp hf with hf | ⟨_, _, hf⟩
  · exact Value.toReal_traced hy hf
  rcases bind_eq_error_iff.mp hf with hf | ⟨_, _, hf⟩
  · cases hf
  simp only at hf
  split at hf
  next => cases hf
  next hn =>
    cases hz : (size.toReal : Except Fault Float) with
    | ok z =>
      rw [hz] at hf
      cases hf
    | error g =>
      rw [hz] at hf
      cases hf
      exact Value.toReal_traced (hs (Bool.eq_false_iff.mpr hn)) hz

theorem Stroke.append_traced {s : Stroke Float} {p : Point Float}
    (h : s.append p = .error f) : f.Traced given := by
  unfold append at h
  split at h
  next => exact Except.error.inj h ▸ .inl rfl
  split at h
  next =>
    refine Except.error.inj h ▸ Fault.traced_of_atoms rfl ?_
    exact List.forall_mem_singleton.mpr ⟨_, rfl⟩
  simp only at h
  split at h
  next => cases h
  next =>
    split at h
    next =>
      refine Except.error.inj h ▸ Fault.traced_of_atoms rfl ?_
      exact List.forall_mem_cons.mpr ⟨⟨_, rfl⟩, List.forall_mem_singleton.mpr ⟨_, rfl⟩⟩
    next => cases h

namespace Gesture

theorem requireCapturing_traced {g : Gesture Float} (h : g.requireCapturing = .error f) :
    f.Traced given := by
  unfold requireCapturing at h
  split at h <;> cases h
  exact .inl rfl

theorem addPoint_traced {g : Gesture Float} {id x y size : Value} {time : Int} (hx : given x)
    (hy : given y) (hs : size.isNull = false → given size)
    (h : g.addPoint id ⟨x, y, .int time, size⟩ = .error f) : f.Traced given := by
  rcases bind_eq_error_iff.mp h with hf | ⟨_, _, hf⟩
  · exact requireCapturing_traced hf
  rcases bind_eq_error_iff.mp hf with hf | ⟨_, _, hf⟩
  · exact Sample.toPoint_traced hx hy hs hf
  rcases bind_eq_error_iff.mp hf with hf | ⟨_, _, hf⟩
  · exact .inl (Value.isReported_of_toName_eq_error hf)
  rcases bind_eq_error_iff.mp hf with hf | ⟨_, _, hf⟩
  · exact Stroke.append_traced hf
  · cases hf

theorem endStroke_traced {g : Gesture Float} {id : Value}
    (hid : id.obstacle? Value.depthLimit = some .tooDeep → given id)
    (h : g.endStroke id = .error f) : f.Traced given := by
  rcases bind_eq_error_iff.mp h with hf | ⟨_, _, hrest⟩
  · exact requireCapturing_traced hf
  rcases bind_eq_error_iff.mp hrest with hf | ⟨key, hkey, hf⟩
  · exact .inl (Value.isReported_of_toName_eq_error hf)
  · obtain rfl := Value.toName_eq_ok_iff.mp hkey
    split at hf <;> cases hf
    exact Fault.traced_of_ownKind rfl (List.forall_mem_singleton.mpr hid)

end Gesture

namespace Engine

variable {e : Engine Float} {g : Gesture Float}

/-- A call that reads from the values given is refused for something that is reported, or for one
of these values. -/
theorem step_traced {c : Call} (hc : c.ReadFrom given) (h : (e.step g c).1 = .refused f) :
    f.Traced given := by
  cases hc with
  | @point id x y size time hx hy hs =>
    rw [step_point] at h
    split at h
    next => cases h
    next ha =>
      cases h
      exact Gesture.addPoint_traced hx hy hs ha
  | up hid =>
    rw [step_up] at h
    split at h
    next => cases h
    next ha =>
      cases h
      exact Gesture.endStroke_traced hid ha

theorem performAll_traced {calls : List Call} (hc : ∀ c ∈ calls, c.ReadFrom given)
    (h : e.performAll g calls = .error f) : f.Traced given := by
  induction calls generalizing g with
  | nil => cases h
  | cons c calls ih =>
    obtain ⟨hfirst, hrest⟩ := List.forall_mem_cons.mp hc
    unfold performAll at h
    split at h
    next hs =>
      cases h
      exact step_traced hfirst (congrArg Prod.fst hs)
    next => exact ih hrest h

theorem evaluate_traced {panel : List (Member Float)}
    (hp : Member.panel e.config e.classifiers = .ok panel) (h : e.evaluate g = .error f) :
    f.Traced given := by
  unfold evaluate judge Gesture.beginEvaluation at h
  rw [hp] at h
  simp only [ok_bind] at h
  split at h
  next => exact Except.error.inj h ▸ .inl rfl
  split at h
  next => exact Except.error.inj h ▸ .inl rfl
  next => cases h

/-- A script is replayed to a verdict or refused for something that is reported, or for one of the
values that it reads from. -/
theorem replay_traced {panel : List (Member Float)}
    (hp : Member.panel e.config e.classifiers = .ok panel) {script : Script}
    (hs : script.ReadFrom given) (h : e.replay script = .error f) : f.Traced given := by
  rcases bind_eq_error_iff.mp h with hr | ⟨recorded, _, hf⟩
  · rcases bind_eq_error_iff.mp hr with hf | ⟨_, _, hf⟩
    · exact performAll_traced hs.calls hf
    · split at hf
      next hfault =>
        cases hf
        exact hs.fault f hfault
      next => cases hf
  rcases bind_eq_error_iff.mp hf with hf | ⟨_, _, hf⟩
  · exact evaluate_traced hp hf
  · cases hf

end Engine

end StrayTouch
