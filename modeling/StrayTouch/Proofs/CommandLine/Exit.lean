import StrayTouch.Proofs.CommandLine.Escape

/-!
How a run ends: with the decision as its exit code if a verdict is reached, with the code of errors
if none is, and in a few cases not at all, because a fault escapes.
-/
namespace StrayTouch

variable {f : Fault}

namespace Disk

variable {d : Disk} {path : String}

theorem refusal_isReported (path : String) (place : Place) :
    (refusal path place).isReported = true := by
  unfold refusal
  split <;> rfl

theorem checkPath_isReported (h : checkPath path = .error f) : f.isReported = true := by
  unfold checkPath at h
  split at h
  next => exact Except.error.inj h ▸ rfl
  split at h
  next => exact Except.error.inj h ▸ rfl
  next => cases h

theorem read_isReported {d : Disk} (h : d.read path = .error f) : f.isReported = true := by
  rcases bind_eq_error_iff.mp h with hf | ⟨_, _, hf⟩
  · exact checkPath_isReported hf
  split at hf
  next => cases hf
  next => cases hf
  next => cases hf
  next => exact Except.error.inj hf ▸ refusal_isReported _ _

theorem writable_isReported {place : Place} (h : writable path place = .error f) :
    f.isReported = true := by
  unfold writable at h
  split at h
  next => cases h
  next => cases h
  next => cases h
  next => cases h
  next => exact Except.error.inj h ▸ refusal_isReported _ _

theorem target_isReported {d : Disk} (h : d.target path = .error f) : f.isReported = true := by
  rcases bind_eq_error_iff.mp h with hf | ⟨_, _, hf⟩
  · exact checkPath_isReported hf
  simp only at hf
  split at hf
  next => exact Except.error.inj hf ▸ refusal_isReported _ _
  next => exact writable_isReported hf

end Disk

namespace TuningLog

variable {path : String} {opened : Except Fault LineFile} {log : TuningLog} {warnings : List Record}

theorem opening_isReported (ho : ∀ g, opened = .error g → g.isReported = true)
    (h : opening path opened = .error f) : f.isReported = true := by
  unfold opening at h
  split at h
  next => cases h
  split at h
  next => cases h
  next g =>
    split at h
    next => cases h
    next => exact Except.error.inj h ▸ ho g rfl

theorem opening_eq_ok (h : opening path opened = .ok (log, warnings)) :
    log = plain ∨ ∃ file, opened = .ok file ∧ log = ⟨0, some file, []⟩ := by
  unfold opening at h
  split at h
  next =>
    cases h
    exact .inl rfl
  split at h
  next file =>
    cases h
    exact .inr ⟨file, rfl, rfl⟩
  next =>
    split at h
    next =>
      cases h
      exact .inl rfl
    next => cases h

theorem closingFault?_writeLine (t : TuningLog) (r : Report) :
    (t.writeLine r).2.1.closingFault? = t.closingFault? ∨
      (t.writeLine r).2.1.closingFault? = t.file.bind fun file => file.fault? 0 := by
  unfold writeLine closingFault?
  cases hf : t.file with
  | none => exact .inl (by simp [hf])
  | some file =>
    cases r.line with
    | error g => exact .inl (by simp [hf])
    | ok line =>
      cases hw : file.fault? 0 with
      | none => exact .inl (by simp [LineFile.write, hw])
      | some g =>
        simp only [LineFile.write, hw, Option.bind_some]
        cases hfiles : g.isOfFiles with
        | true => exact .inr (by simp [forgives, hfiles])
        | false => exact .inl (by cases forgives g <;> simp)

/-- Only the write of a report can leave behind a fault that is met again at closing. -/
theorem closingFault?_log (t : TuningLog) (r : Report) :
    (t.log r).2.1.closingFault? = t.closingFault? ∨
      (t.log r).2.1.closingFault? = t.file.bind fun file => file.fault? 0 := by
  unfold log
  cases r.shownScores with
  | error g => exact .inl rfl
  | ok scores =>
    cases r.failedList with
    | error g => exact .inl rfl
    | ok names => exact closingFault?_writeLine ⟨t.count + 1, t.file, t.kept⟩ r

end TuningLog

theorem Outcome.exists_of_isReported (h : f.isReported = true) (records : List Record) :
    ∃ outcome, ofFault records f = .ok outcome ∧ outcome.exitCode = 2 :=
  ⟨_, if_pos h, rfl⟩

/-- The verdict on the recording of a plan. -/
def Plan.verdict (p : Plan) : Except Fault (Verdict Float) := do
  (Engine.standard p.config).replay (← p.recording.script)

namespace Invocation

/-- The verdict that a run reaches: the configuration and the recording have to be read and the
tuning log to be opened before the recording is replayed. -/
def verdict (i : Invocation) (d : Disk) : Except Fault (Verdict Float) := do
  let plan ← (i.prepare (d.read i.config) (d.read (i.gesture.getD ""))).1
  let _ ← TuningLog.opening i.tuningLog ((d.target i.tuningLog).map (fileAt d))
  plan.verdict

/-- Whether a path is one of those that a run loads documents from. -/
def IsSource (i : Invocation) (path : String) : Prop :=
  path = i.config ∨ path = i.gesture.getD ""

/-- The faults that escape from a run: those of a level that is none, those of a text that is no
document, and those that come from something in a document that has been loaded. -/
inductive Escapes (i : Invocation) (d : Disk) : Fault → Prop
  | level {f : Fault} (h : LogOutput.readLevel i.logLevel = .error f) : Escapes i d f
  | markup {path text : String} {f : Fault} (hp : i.IsSource path) (ht : d.read path = .ok text)
      (h : Yaml.load text = .error f) (hr : f.isReported = false) : Escapes i d f
  | slip {path text : String} {document : Value} {f : Fault} (hp : i.IsSource path)
      (ht : d.read path = .ok text) (hd : Yaml.load text = .ok document)
      (h : f.Slips document.Reaches) : Escapes i d f

variable {i : Invocation} {d : Disk}

theorem escapes_of_load {path : String} (hp : i.IsSource path)
    (h : (d.read path).bind Yaml.load = .error f) : f.isReported = true ∨ i.Escapes d f := by
  rcases bind_eq_error_iff.mp h with hf | ⟨text, ht, hf⟩
  · exact .inl (Disk.read_isReported hf)
  · cases hr : f.isReported with
    | true => exact .inl rfl
    | false => exact .inr (.markup hp ht hf hr)

theorem escapes_of_traced {path text : String} {document : Value} (hp : i.IsSource path)
    (ht : d.read path = .ok text) (hd : Yaml.load text = .ok document)
    (h : f.Traced document.Reaches) : f.isReported = true ∨ i.Escapes d f :=
  h.imp_right (.slip hp ht hd)

theorem readConfig_fst (i : Invocation) (text : Except Fault String) :
    (i.readConfig text).1 =
      if i.config.isEmpty then Config.ofDocument [] .null
      else text.bind Yaml.load >>= Config.ofDocument [] := by
  unfold readConfig readSettings
  split
  next => rfl
  next =>
    cases text.bind Yaml.load with
    | error f => rfl
    | ok document =>
      simp only [ok_bind, Config.ofDocument]
      cases (Settings.ofDocument [] document : Except Fault (Settings Float)) with
      | error f => rfl
      | ok s => rfl

theorem prepare_fst (i : Invocation) (configText gestureText : Except Fault String) :
    (i.prepare configText gestureText).1 = (do
      let config ← (i.readConfig configText).1
      let recording ← readRecording (i.gesture.getD "") gestureText
      let c ← config.forRecording recording
      .ok ⟨c, recording⟩) := by
  unfold prepare
  cases hc : i.readConfig configText with
  | mk result records =>
    cases result with
    | error f => rfl
    | ok config =>
      cases readRecording (i.gesture.getD "") gestureText with
      | error f => rfl
      | ok recording =>
        simp only [ok_bind]
        cases config.forRecording recording <;> rfl

theorem readConfig_escapes (h : (i.readConfig (d.read i.config)).1 = .error f) :
    f.isReported = true ∨ i.Escapes d f := by
  rw [readConfig_fst] at h
  split at h
  next =>
    obtain ⟨c, hc⟩ : ∃ c, Config.ofDocument (α := Float) [] .null = .ok c :=
      exists_of_isOk (by decide +kernel)
    rw [hc] at h
    cases h
  next =>
    rcases bind_eq_error_iff.mp h with hl | ⟨document, hl, hf⟩
    · exact escapes_of_load (.inl rfl) hl
    · obtain ⟨text, ht, hd⟩ := bind_eq_ok_iff.mp hl
      exact escapes_of_traced (.inl rfl) ht hd (Config.ofDocument_refusal hf).traced

theorem exists_build_of_readConfig {text : Except Fault String} {c : Config Float}
    (h : (i.readConfig text).1 = .ok c) : ∃ s, Config.build s = .ok c := by
  rw [readConfig_fst] at h
  have hbuild : ∀ document, Config.ofDocument [] document = .ok c →
      ∃ s, Config.build s = .ok c := by
    intro document hd
    obtain ⟨s, _, hs⟩ := bind_eq_ok_iff.mp hd
    exact ⟨s, hs⟩
  split at h
  next => exact hbuild _ h
  next =>
    obtain ⟨document, _, hd⟩ := bind_eq_ok_iff.mp h
    exact hbuild document hd

theorem readRecording_escapes
    (h : readRecording (i.gesture.getD "") (d.read (i.gesture.getD "")) = .error f) :
    f.isReported = true ∨ i.Escapes d f := by
  rcases bind_eq_error_iff.mp h with ht | ⟨text, ht, hf⟩
  · exact .inl (Disk.read_isReported ht)
  rcases bind_eq_error_iff.mp hf with hl | ⟨document, _, hf⟩
  · exact escapes_of_load (.inr rfl) (bind_eq_error_iff.mpr (.inr ⟨text, ht, hl⟩))
  · left
    split at hf
    next =>
      split at hf
      next => cases hf
      next => exact Except.error.inj hf ▸ rfl
    next => exact Except.error.inj hf ▸ rfl

/-- A recording that has been read lists strokes. -/
theorem readRecording_eq_ok {path : String} {text : Except Fault String} {recording : Value}
    (h : readRecording path text = .ok recording) :
    (∃ t, text = .ok t ∧ Yaml.load t = .ok recording) ∧
      ∃ v strokes, recording.field? "strokes" = some v ∧ v.head = .list strokes := by
  obtain ⟨t, ht, h⟩ := bind_eq_ok_iff.mp h
  obtain ⟨document, hd, h⟩ := bind_eq_ok_iff.mp h
  split at h
  next v hv =>
    split at h
    next strokes hs =>
      cases h
      exact ⟨⟨t, ht, hd⟩, v, strokes, hv, hs⟩
    next => cases h
  next => cases h

end Invocation

theorem Config.forRecording_traced {c : Config Float} {recording : Value}
    (h : c.forRecording recording = .error f) : f.Traced recording.Reaches := by
  unfold forRecording at h
  simp only at h
  split at h
  next => cases h
  next => exact (withDpi_refusal (fun hn => Value.reaches_of_field rfl hn) h).traced

theorem Config.exists_build_of_forRecording {c c' : Config Float} {recording : Value}
    (hc : ∃ s, build s = .ok c) (h : c.forRecording recording = .ok c') :
    ∃ s, build s = .ok c' := by
  unfold forRecording at h
  simp only at h
  split at h
  next => exact Except.ok.inj h ▸ hc
  next => exact ⟨_, h⟩

/-- A recording that lists strokes is replayed to a verdict, or refused for something that is
reported or that it holds. -/
theorem Plan.verdict_traced {p : Plan} (hc : ∃ s, Config.build s = .ok p.config)
    {v : Value} {strokes : List Value} (hv : p.recording.field? "strokes" = some v)
    (hs : v.head = .list strokes) (h : p.verdict = .error f) :
    f.Traced p.recording.Reaches := by
  obtain ⟨s, hs'⟩ := hc
  obtain ⟨panel, hp, _⟩ := Variant.exists_panel hs'
  have hscript : p.recording.script = .ok (.ofStrokes 0 strokes) := by
    rw [Value.script, hv]
    simp only [Value.items_of_list hs, ok_bind]
  rw [verdict, hscript, ok_bind] at h
  refine Engine.replay_traced hp (Script.readFrom_ofStrokes 0 fun stroke hstroke w hw => ?_) h
  exact (Value.reaches_field? hv).trans (.item (Value.items_of_list hs) hstroke hw)

namespace Invocation

variable {i : Invocation} {d : Disk}

/-- A run that reaches no verdict is refused for something that is reported, or by one of the
faults that escape. -/
theorem verdict_escapes (h : i.verdict d = .error f) : f.isReported = true ∨ i.Escapes d f := by
  rcases bind_eq_error_iff.mp h with hp | ⟨plan, hp, h⟩
  · rw [prepare_fst] at hp
    rcases bind_eq_error_iff.mp hp with hc | ⟨config, hc, hp⟩
    · exact readConfig_escapes hc
    rcases bind_eq_error_iff.mp hp with hr | ⟨recording, hr, hp⟩
    · exact readRecording_escapes hr
    rcases bind_eq_error_iff.mp hp with hd | ⟨_, _, hp⟩
    · obtain ⟨⟨text, ht, hl⟩, _⟩ := readRecording_eq_ok hr
      exact escapes_of_traced (.inr rfl) ht hl (Config.forRecording_traced hd)
    · cases hp
  rcases bind_eq_error_iff.mp h with ho | ⟨_, _, h⟩
  · refine .inl (TuningLog.opening_isReported (fun g hg => ?_) ho)
    cases ht : d.target i.tuningLog with
    | ok here =>
      rw [ht] at hg
      cases hg
    | error g' =>
      rw [ht] at hg
      exact Except.error.inj hg ▸ Disk.target_isReported ht
  · rw [prepare_fst] at hp
    obtain ⟨config, hc, hp⟩ := bind_eq_ok_iff.mp hp
    obtain ⟨recording, hr, hp⟩ := bind_eq_ok_iff.mp hp
    obtain ⟨c, hd, hp⟩ := bind_eq_ok_iff.mp hp
    obtain rfl := Except.ok.inj hp
    obtain ⟨⟨text, ht, hl⟩, v, strokes, hv, hs⟩ := readRecording_eq_ok hr
    have hbuild := Config.exists_build_of_forRecording (exists_build_of_readConfig hc) hd
    exact escapes_of_traced (.inr rfl) ht hl (Plan.verdict_traced hbuild hv hs h)

theorem finish_of_error {p : Plan} (h : p.verdict = .error f) (records : List Record)
    (log : TuningLog) : ∃ more, (finish records p log).1 = Outcome.ofFault more f := by
  unfold Plan.verdict at h
  unfold finish Plan.replay
  cases hs : p.recording.script with
  | error g =>
    rw [hs] at h
    obtain rfl := Except.error.inj h
    exact ⟨_, rfl⟩
  | ok script =>
    rw [hs, ok_bind] at h
    simp only [h]
    exact ⟨_, rfl⟩

theorem finish_of_verdict {p : Plan} {v : Verdict Float} (h : p.verdict = .ok v)
    (records : List Record) (log : TuningLog) :
    ∃ more, (finish records p log).1 =
      match (log.log v.report).2.1.closingFault? with
      | none => .ok (Outcome.ofVerdict more v)
      | some f => Outcome.ofFault more f := by
  obtain ⟨script, hs, hreplay⟩ := bind_eq_ok_iff.mp h
  refine ⟨records ++ ((Engine.standard p.config).traceReplay script ++
    (Session.inform (.log log) (.verdict v)).2), ?_⟩
  have hlistener : (Session.inform (.log log) (.verdict v)).1 = .log (log.log v.report).2.1 := by
    unfold Session.inform Listener.hear
    simp only
    split <;> rfl
  simp only [finish, Plan.replay, hs, hreplay, hlistener, Listener.closingFault?]
  cases (log.log v.report).2.1.closingFault? <;> rfl

/-- Whether the tuning log is on a device that takes nothing. -/
def LogsToFull (i : Invocation) (d : Disk) : Prop :=
  ∃ here, d.target i.tuningLog = .ok here ∧ d.entryAt here = some (.device .full)

theorem closingFault?_of_opening {log : TuningLog} {warnings : List Record}
    (h : TuningLog.opening i.tuningLog ((d.target i.tuningLog).map (fileAt d)) =
      .ok (log, warnings)) (r : Report) :
    (log.log r).2.1.closingFault? = none ∨
      (log.log r).2.1.closingFault? = some .noSpace ∧ i.LogsToFull d := by
  rcases TuningLog.opening_eq_ok h with rfl | ⟨file, hfile, rfl⟩
  · exact .inl ((TuningLog.closingFault?_log _ r).elim id id)
  cases ht : d.target i.tuningLog with
  | error g =>
    rw [ht] at hfile
    cases hfile
  | ok here =>
    rw [ht] at hfile
    obtain rfl := Except.ok.inj hfile
    unfold fileAt
    split
    next hfull =>
      refine (TuningLog.closingFault?_log _ r).imp id fun hw => ⟨hw, here, ht, ?_⟩
      exact beq_iff_eq.mp hfull
    next => exact .inl ((TuningLog.closingFault?_log _ r).elim id id)

/-- A run does what its end says, wherever the lines of the tuning log go. -/
theorem run_fst (i : Invocation) (d : Disk) :
    (i.run d).1 =
      match i.prepare (d.read i.config) (d.read (i.gesture.getD "")) with
      | (.error f, records) => Outcome.ofFault records f
      | (.ok plan, records) =>
        match TuningLog.opening i.tuningLog ((d.target i.tuningLog).map (fileAt d)) with
        | .error f => Outcome.ofFault records f
        | .ok (log, warnings) => (finish (records ++ warnings) plan log).1 := by
  unfold run
  cases i.prepare (d.read i.config) (d.read (i.gesture.getD "")) with
  | mk result records =>
  cases result with
  | error f => rfl
  | ok plan =>
  simp only
  cases TuningLog.opening i.tuningLog ((d.target i.tuningLog).map (fileAt d)) with
  | error f => rfl
  | ok opened =>
    simp only
    split <;> rfl

theorem run_of_error (h : i.verdict d = .error f) :
    ∃ records, (i.run d).1 = Outcome.ofFault records f := by
  unfold verdict at h
  rw [run_fst]
  cases hp : i.prepare (d.read i.config) (d.read (i.gesture.getD "")) with
  | mk result records =>
    rw [hp] at h
    cases result with
    | error g =>
      obtain rfl := Except.error.inj h
      exact ⟨records, rfl⟩
    | ok plan =>
      simp only [ok_bind] at h ⊢
      cases ho : TuningLog.opening i.tuningLog ((d.target i.tuningLog).map (fileAt d)) with
      | error g =>
        rw [ho] at h
        obtain rfl := Except.error.inj h
        exact ⟨records, rfl⟩
      | ok opened =>
        rw [ho, ok_bind] at h
        exact finish_of_error h _ opened.1

theorem run_of_verdict {v : Verdict Float} (h : i.verdict d = .ok v) :
    ∃ outcome, (i.run d).1 = .ok outcome ∧
      (outcome.exitCode = (if v.decision = .accept then 0 else 1) ∨
        outcome.exitCode = 2 ∧ i.LogsToFull d) := by
  unfold verdict at h
  rw [run_fst]
  obtain ⟨plan, hp, h⟩ := bind_eq_ok_iff.mp h
  obtain ⟨opened, ho, h⟩ := bind_eq_ok_iff.mp h
  cases hr : i.prepare (d.read i.config) (d.read (i.gesture.getD "")) with
  | mk result records =>
    rw [hr] at hp
    cases hp
    obtain ⟨more, hm⟩ := finish_of_verdict h (records ++ opened.2) opened.1
    simp only [ho, hm]
    rcases closingFault?_of_opening ho v.report with hc | ⟨hc, hfull⟩
    · exact ⟨_, by rw [hc], .inl rfl⟩
    · exact ⟨_, by rw [hc]; rfl, .inr ⟨rfl, hfull⟩⟩

theorem readLevel_of_ofArguments {level : Value}
    (h : LogOutput.ofArguments d [level] = .error f) : LogOutput.readLevel level = .error f := by
  unfold LogOutput.ofArguments at h
  rcases bind_eq_error_iff.mp h with hl | ⟨_, _, h⟩
  · exact hl
  · cases h

/-- Every run ends in one of three ways. If it reaches a verdict, its exit code tells the decision,
unless the tuning log is on a device that takes nothing. If it reaches none, its exit code is that
of errors, or one of the faults escapes that can. -/
theorem perform_exits (i : Invocation) (d : Disk) :
    (∃ v output outcome, i.verdict d = .ok v ∧ (i.perform d).1 = .ok (output, outcome) ∧
      (outcome.exitCode = (if v.decision = .accept then 0 else 1) ∨
        outcome.exitCode = 2 ∧ i.LogsToFull d)) ∨
    (∃ f output outcome, i.verdict d = .error f ∧ (i.perform d).1 = .ok (output, outcome) ∧
      outcome.exitCode = 2) ∨
    ∃ f, (i.perform d).1 = .error f ∧ i.Escapes d f := by
  cases hl : LogOutput.ofArguments d [i.logLevel] with
  | error g =>
    exact .inr (.inr ⟨g, by rw [perform, hl], .level (readLevel_of_ofArguments hl)⟩)
  | ok output =>
    have hrun : (i.perform d).1 = (i.run d).1.map fun o => (output, o) := by rw [perform, hl]
    rw [hrun]
    cases hv : i.verdict d with
    | ok v =>
      obtain ⟨outcome, hr, hcode⟩ := run_of_verdict hv
      exact .inl ⟨v, output, outcome, rfl, by rw [hr]; rfl, hcode⟩
    | error f =>
      obtain ⟨records, hr⟩ := run_of_error hv
      rw [hr]
      cases hf : f.isReported with
      | true =>
        obtain ⟨outcome, ho, hcode⟩ := Outcome.exists_of_isReported hf records
        exact .inr (.inl ⟨f, output, outcome, rfl, by rw [ho]; rfl, hcode⟩)
      | false =>
        have hescapes := (verdict_escapes hv).resolve_left (by simp [hf])
        exact .inr (.inr ⟨f, by rw [Outcome.ofFault, hf]; rfl, hescapes⟩)

/-- A recording with a touch at the end of time. -/
def endlessTouch : String := "strokes:\n- points:\n  - [0, 0, .inf]\n"

def endlessTouchDisk : Disk := ⟨[], [(["t"], .file endlessTouch)]⟩

def replayEndlessTouch : Invocation := ⟨some "t", "", "", .text "INFO"⟩

theorem steps_endlessTouch : Disk.steps "t" = ["t"] := by
  -- splitting a text is by well-founded recursion, which only its equation opens
  have hlast : "t".splitOnAux "/" 0 ⟨1⟩ 0 [] = ["t"] := by
    rw [String.splitOnAux.eq_def]
    decide +kernel
  unfold Disk.steps String.splitOn
  rw [if_neg (by decide), String.splitOnAux.eq_def, if_neg (by decide), if_neg (by decide)]
  exact hlast

theorem read_endlessTouch : endlessTouchDisk.read "t" = .ok endlessTouch := by
  have hcheck : Disk.checkPath "t" = .ok () := by
    unfold Disk.checkPath
    rw [if_neg (by simp), if_neg (by decide)]
  have hwalk : endlessTouchDisk.walk "t" = .taken ["t"] (.file endlessTouch) := by
    unfold Disk.walk
    rw [steps_endlessTouch, if_neg (by decide), if_neg (by decide +kernel)]
    rfl
  rw [Disk.read, hcheck, ok_bind, hwalk]

/-- Nothing ends the replay of that recording, and neither does anything end a run at a level that
is the name of a layout. -/
theorem perform_endlessTouch :
    (∃ f, (replayEndlessTouch.perform endlessTouchDisk).1 = .error f ∧ f.kind = .overflow) ∧
      ∃ f, (({ replayEndlessTouch with logLevel := .text "basic_format" } :
        Invocation).perform endlessTouchDisk).1 = .error f ∧ f.kind = .value := by
  refine ⟨?_, exists_of_kind? (by decide +kernel)⟩
  have hkind : kind? (replayEndlessTouch.run endlessTouchDisk).1 = some .overflow := by
    rw [run_fst]
    unfold replayEndlessTouch
    rw [Option.getD_some, read_endlessTouch]
    decide +kernel
  obtain ⟨f, hrun, hf⟩ := exists_of_kind? hkind
  have hlevel : LogOutput.ofArguments endlessTouchDisk [replayEndlessTouch.logLevel] =
      .ok ⟨Level.info, none⟩ := rfl
  refine ⟨f, ?_, hf⟩
  rw [perform, hlevel]
  simp only [hrun]
  rfl

end Invocation

end StrayTouch
