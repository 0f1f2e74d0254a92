import Upkeep.Log.LogStore
import Upkeep.Proofs.Lists
import Upkeep.Proofs.Log.Base
import Upkeep.Proofs.Run

/-!
This module contains the proof that a log whose level is switched is the one that would be built at
the new level, whatever is done to its store, and what the level says of the events that the log
lets through.
-/

namespace Upkeep.Log

theorem level?_name (v : Severity) : level? (Verbosity.ofSeverity v).name = some v := by
  cases v <;> decide +kernel

theorem readDirectives_of_toOption {raws : List String} {ds : List Directive}
    (hds : (readDirectives raws).toOption = some ds) : readDirectives raws = .ok ds := by
  cases hread : readDirectives raws with
  | error e => simp [hread, Except.toOption] at hds
  | ok d => simpa [hread, Except.toOption] using hds

namespace Logger

/--
A log at another level.
-/
def switch (l : Logger) (level : Severity) : Logger :=
  { l with level, filter := some (Filter.compose level l.directives) }

variable {l : Logger} {settings : Settings} {raw : String} {level : Severity}

theorem build_of_directives {s : Settings} {d : List Directive}
    (hlevel : level? s.level = some level) (hd : readDirectives s.directives = .ok d) :
    build s = .ok
      { layout := ⟨s.ansi, s.withTarget⟩, directives := d, level
        filter := some (Filter.compose level d) } := by
  simp only [build, hlevel, hd]
  rfl

theorem build_ok (hl : build settings = .ok l) :
    level? settings.level = some l.level ∧ readDirectives settings.directives = .ok l.directives ∧
      l.switch l.level = l ∧ ∀ level,
        build { settings with level := (Verbosity.ofSeverity level).name } =
          .ok (l.switch level) := by
  cases hlevel : level? settings.level with
  | none => simp [build, hlevel] at hl
  | some first =>
    cases hds : readDirectives settings.directives with
    | error e => simp [build, hlevel, hds, Except.map] at hl
    | ok ds =>
      rw [build_of_directives hlevel hds, Except.ok.injEq] at hl
      subst hl
      exact ⟨rfl, rfl, rfl, fun level => build_of_directives (level?_name level) hds⟩

theorem setLevel_of_unknown (l : Logger) (hraw : level? raw = none) :
    l.setLevel raw = (.error (.unknownLevel raw), l, []) := by
  rw [setLevel, hraw]

theorem setLevel_of_gone (hraw : level? raw = some level) (hl : l.filter = none) :
    l.setLevel raw = (.error .reload, l, []) := by
  rw [setLevel, hraw, hl]

theorem setLevel_of_known {f : Filter} (hraw : level? raw = some level) (hl : l.filter = some f) :
    l.setLevel raw =
      (.ok level, l.switch level, (reported l.level level).flatMap (l.switch level).emit) := by
  rw [setLevel, hraw, hl]
  rfl

end Logger

/--
The name of a level alone is a directive for everything.
-/
theorem Directive.ofText_debug : ofText "debug" = .ok (.everything .debug) := by
  -- Reading it as a whole compares two computed texts, which takes the kernel long.
  have hlevel : Verbosity.ofText? "debug" = some .debug := by
    have hnumber : Verbosity.ofNumber? "debug" = none := by decide +kernel
    have hempty : "debug".isEmpty = false := by decide +kernel
    have hlower : Text.lower "debug" = "debug" := by decide +kernel
    have hfind : (Verbosity.all.find? fun v => v.name = "debug") = some .debug := by decide +kernel
    rw [Verbosity.ofText?, hnumber, hlower]
    simp only [hempty, hfind]
    rfl
  have hread : readFrom "debug".toList ⟨.start, everything .trace⟩ 0
      (Text.trimChars "debug".toList) = .ok ⟨.word, everything .trace⟩ := rfl
  have hword : (everything .trace).ofWord "debug" = everything .debug := by
    rw [ofWord, hlevel]
    rfl
  have hfinish : finish "debug".toList ⟨.word, everything .trace⟩ = .ok (everything .debug) := by
    rw [finish, String.ofList_toList, hword]
  rw [ofText, hread]
  exact hfinish

namespace LogStore

/--
Something that happens to a log: it is built, or its level is switched.
-/
inductive LogMark where
  | built (i : Nat) (settings : Settings)
  | switched (i : Nat) (level : Severity)

/--
What a step does to logs.
-/
def marks (s : LogStore) : LogStep → List LogMark
  | .build settings =>
    match Logger.build settings with
    | .ok _ => [.built s.logs.length settings]
    | .error _ => []
  | .setLevel handle raw =>
    match s.handles[handle]?, (s.step (.setLevel handle raw)).2.1 with
    | some i, .level level => [.switched i level]
    | _, _ => []
  | _ => []

/--
What a run does to logs, oldest first.
-/
def history (s : LogStore) (steps : List LogStep) : List LogMark :=
  Run.history (fun s a => (s.step a).1) marks s steps

/--
The levels to which a log was switched, oldest first.
-/
def switches (i : Nat) (h : List LogMark) : List Severity :=
  h.filterMap fun m =>
    match m with
    | .built _ _ => none
    | .switched j level => if j = i then some level else none

theorem switches_append (i : Nat) (h ms : List LogMark) :
    switches i (h ++ ms) = switches i h ++ switches i ms :=
  List.filterMap_append

variable {s : LogStore} {handle i : Nat} {l : Logger} {raw : String} {level : Severity}

section

variable (hi : s.handles[handle]? = some i) (hl : s.logs[i]? = some l)

include hi hl

theorem log?_eq : s.log? handle = some l := by rw [log?, hi, Option.bind_some, hl]

theorem step_level : s.step (.level handle) = (s, .level l.level, []) := by
  rw [step, log?_eq hi hl]

theorem step_unknown (hraw : level? raw = none) :
    s.step (.setLevel handle raw) = (s, .failed (.unknownLevel raw), []) := by
  simp only [step, log?_eq hi hl, Logger.setLevel_of_unknown l hraw, update, hi, set_eq_self hl]

theorem step_gone (hraw : level? raw = some level) (hgone : l.filter = none) :
    s.step (.setLevel handle raw) = (s, .failed .reload, []) := by
  simp only [step, log?_eq hi hl, Logger.setLevel_of_gone hraw hgone, update, hi, set_eq_self hl]

theorem step_known {f : Filter} (hraw : level? raw = some level) (hf : l.filter = some f) :
    s.step (.setLevel handle raw) = ({ s with logs := s.logs.set i (l.switch level) }, .level level,
      Logger.reported l.level level) := by
  simp only [step, log?_eq hi hl, Logger.setLevel_of_known hraw hf, update, hi]

end

/--
What a log that listens writes of a call is what the call by itself writes.
-/
theorem hear_setLevel (hi : s.handles[handle]? = some i) (hl : s.logs[i]? = some l)
    (hlistener : s.listener = some i) (raw : String) :
    hear (s.step (.setLevel handle raw)).1 (s.step (.setLevel handle raw)).2.2 =
      (l.setLevel raw).2.2 := by
  have hnone : s.hear [] = [] := by simp [hear, hlistener, hl]
  cases hraw : level? raw with
  | none => rw [step_unknown hi hl hraw, Logger.setLevel_of_unknown l hraw, hnone]
  | some level =>
    cases hf : l.filter with
    | none => rw [step_gone hi hl hraw hf, Logger.setLevel_of_gone hraw hf, hnone]
    | some f =>
      have hnext : (s.logs.set i (l.switch level))[i]? = some (l.switch level) := by
        rw [getElem?_set_of_getElem? hl, if_pos rfl]
      rw [step_known hi hl hraw hf, Logger.setLevel_of_known hraw hf, hear]
      simp only [hlistener, Option.bind_some, hnext]

/--
What a step does to a store, and what becomes of its logs.
-/
inductive Effect (s : LogStore) : LogStep → LogStore → List LogMark → Prop where
  | idle (a : LogStep) : Effect s a s []
  | build (settings : Settings) (l : Logger) (hl : Logger.build settings = .ok l) :
    Effect s (.build settings)
      { s with logs := s.logs ++ [l], handles := s.handles ++ [s.logs.length] }
      [.built s.logs.length settings]
  | clone (handle i : Nat) (hi : s.handles[handle]? = some i) :
    Effect s (.clone handle) { s with handles := s.handles ++ [i] } []
  | switch (handle i : Nat) (raw : String) (l : Logger) (f : Filter) (level : Severity)
    (hi : s.handles[handle]? = some i) (hl : s.logs[i]? = some l) (hf : l.filter = some f)
    (hraw : level? raw = some level) :
    Effect s (.setLevel handle raw) { s with logs := s.logs.set i (l.switch level) }
      [.switched i level]
  | listen (log : Option Nat) : Effect s (.listen log) { s with listener := log } []
  | drop (i : Nat) (l : Logger) (hl : s.logs[i]? = some l) :
    Effect s (.drop i) { s with logs := s.logs.set i l.drop } []

theorem build_effect (s : LogStore) (settings : Settings) :
    s.Effect (.build settings) (s.step (.build settings)).1 (s.marks (.build settings)) := by
  cases hl : Logger.build settings with
  | error e => simpa only [step, marks, hl] using .idle _
  | ok l => simpa only [step, marks, hl] using .build settings l hl

theorem clone_effect (s : LogStore) (handle : Nat) :
    s.Effect (.clone handle) (s.step (.clone handle)).1 [] := by
  cases hi : s.handles[handle]? with
  | none => simpa only [step, hi] using .idle _
  | some i => simpa only [step, hi] using .clone handle i hi

theorem level_effect (s : LogStore) (handle : Nat) :
    s.Effect (.level handle) (s.step (.level handle)).1 [] := by
  cases hl : s.log? handle <;> simpa only [step, hl] using .idle _

theorem setLevel_effect (s : LogStore) (handle : Nat) (raw : String) :
    s.Effect (.setLevel handle raw) (s.step (.setLevel handle raw)).1
      (s.marks (.setLevel handle raw)) := by
  cases hi : s.handles[handle]? with
  | none =>
    have hlog : s.log? handle = none := by rw [log?, hi, Option.bind_none]
    simpa only [marks, step, hlog, hi] using .idle _
  | some i =>
    cases hl : s.logs[i]? with
    | none =>
      have hlog : s.log? handle = none := by rw [log?, hi, Option.bind_some, hl]
      simpa only [marks, step, hlog, hi] using .idle _
    | some l =>
      cases hraw : level? raw with
      | none => simpa only [marks, hi, step_unknown hi hl hraw] using .idle _
      | some level =>
        cases hf : l.filter with
        | none => simpa only [marks, hi, step_gone hi hl hraw hf] using .idle _
        | some f =>
          simpa only [marks, hi, step_known hi hl hraw hf] using
            .switch handle i raw l f level hi hl hf hraw

theorem drop_effect (s : LogStore) (i : Nat) : s.Effect (.drop i) (s.step (.drop i)).1 [] := by
  cases hl : s.logs[i]? with
  | none =>
    have hsame : s.logs.modify i Logger.drop = s.logs :=
      List.modify_eq_self (List.getElem?_eq_none_iff.1 hl)
    simpa only [step, hsame] using .idle _
  | some l => simpa only [step, modify_eq_set hl] using .drop i l hl

theorem step_effect (s : LogStore) (a : LogStep) : s.Effect a (s.step a).1 (s.marks a) := by
  cases a with
  | build settings => exact s.build_effect settings
  | clone handle => exact s.clone_effect handle
  | level handle => exact s.level_effect handle
  | setLevel handle raw => exact s.setLevel_effect handle raw
  | listen log => exact .listen log
  | drop log => exact s.drop_effect log

/--
Where a log comes from: it is the one that was built, at the level to which it was switched last. It
may not be heard any more.
-/
def Origin (h : List LogMark) (i : Nat) (l : Logger) : Prop :=
  ∃ settings first, .built i settings ∈ h ∧ Logger.build settings = .ok first ∧
    (l = first.switch l.level ∨ l = (first.switch l.level).drop) ∧
      l.level = (switches i h).getLast?.getD first.level

theorem Origin.append {h ms : List LogMark} (hl : Origin h i l) (hms : switches i ms = []) :
    Origin (h ++ ms) i l := by
  obtain ⟨settings, first, hbuilt, hfirst, hlog, hlevel⟩ := hl
  refine ⟨settings, first, List.mem_append_left _ hbuilt, hfirst, hlog, ?_⟩
  rw [switches_append, hms, List.append_nil, hlevel]

/--
What holds of a store after a run with some history.
-/
structure Sound (s : LogStore) (h : List LogMark) : Prop where
  handles : ∀ i ∈ s.handles, i < s.logs.length
  unborn : ∀ i, s.logs.length ≤ i → switches i h = []
  logs : ∀ i l, s.logs[i]? = some l → Origin h i l

theorem Sound.build {h : List LogMark} (hs : s.Sound h) {settings : Settings}
    (hl : Logger.build settings = .ok l) :
    Sound { s with logs := s.logs ++ [l], handles := s.handles ++ [s.logs.length] }
      (h ++ [.built s.logs.length settings]) where
  handles := by
    intro i hi
    rw [List.length_append, List.length_singleton]
    rcases List.mem_append.1 hi with hold | hnew
    . have hlt := hs.handles i hold
      omega
    . have hlast := List.mem_singleton.1 hnew
      omega
  unborn := by
    intro i hi
    rw [List.length_append, List.length_singleton] at hi
    rw [switches_append, hs.unborn i (by omega)]
    rfl
  logs := by
    intro i l' hl'
    rcases origin_of_concat hl' with ⟨rfl, rfl⟩ | ⟨-, hold⟩
    . refine ⟨settings, l', by simp, hl, .inl (Logger.build_ok hl).2.2.1.symm, ?_⟩
      rw [switches_append, hs.unborn _ (Nat.le_refl _)]
      rfl
    . exact (hs.logs i l' hold).append rfl

theorem Sound.switch {h : List LogMark} (hs : s.Sound h) (hl : s.logs[i]? = some l) {f : Filter}
    (hf : l.filter = some f) (level : Severity) :
    Sound { s with logs := s.logs.set i (l.switch level) } (h ++ [.switched i level]) where
  handles := by simpa only [List.length_set] using hs.handles
  unborn := by
    intro j hj
    rw [List.length_set] at hj
    have hlt := (List.getElem?_eq_some_iff.1 hl).1
    have hij : i ≠ j := by omega
    rw [switches_append, hs.unborn j hj]
    simp [switches, hij]
  logs := by
    intro j l' hl'
    rcases origin_of_set hl' with ⟨rfl, rfl⟩ | ⟨hne, hold⟩
    . obtain ⟨settings, first, hbuilt, hfirst, hlog, -⟩ := hs.logs j l hl
      have hheard : l = first.switch l.level := by
        refine hlog.resolve_right fun hdropped => ?_
        rw [hdropped] at hf
        cases hf
      refine ⟨settings, first, List.mem_append_left _ hbuilt, hfirst, .inl ?_, ?_⟩
      . rw [hheard]
        rfl
      . rw [switches_append]
        simp [switches, Logger.switch]
    . have hij : i ≠ j := fun heq => hne heq.symm
      exact (hs.logs j l' hold).append (by simp [switches, hij])

theorem Sound.drop {h : List LogMark} (hs : s.Sound h) (hl : s.logs[i]? = some l) :
    Sound { s with logs := s.logs.set i l.drop } h where
  handles := by simpa only [List.length_set] using hs.handles
  unborn := by simpa only [List.length_set] using hs.unborn
  logs := by
    intro j l' hl'
    rcases origin_of_set hl' with ⟨rfl, rfl⟩ | ⟨-, hold⟩
    . obtain ⟨settings, first, hbuilt, hfirst, hlog, hlevel⟩ := hs.logs j l hl
      refine ⟨settings, first, hbuilt, hfirst, .inr ?_, hlevel⟩
      rcases hlog with hlog | hlog <;> rw [hlog] <;> rfl
    . exact hs.logs j l' hold

theorem sound_effect {a : LogStep} {next : LogStore} {h ms : List LogMark}
    (heffect : s.Effect a next ms) (hs : s.Sound h) : next.Sound (h ++ ms) := by
  cases heffect with
  | idle => rwa [List.append_nil]
  | build settings l hl => exact hs.build hl
  | clone handle i hi =>
    rw [List.append_nil]
    refine ⟨fun j hj => ?_, hs.unborn, hs.logs⟩
    rcases List.mem_append.1 hj with hold | hnew
    . exact hs.handles j hold
    . exact List.mem_singleton.1 hnew ▸ hs.handles i (List.mem_of_getElem? hi)
  | switch handle i raw l f level hi hl hf hraw => exact hs.switch hl hf level
  | listen log =>
    rw [List.append_nil]
    exact ⟨hs.handles, hs.unborn, hs.logs⟩
  | drop i l hl =>
    rw [List.append_nil]
    exact hs.drop hl

theorem sound_run (steps : List LogStep) : (empty.run steps).Sound (empty.history steps) :=
  Run.invariant_of_step (fun (s : LogStore) a => (s.step a).1) marks Sound
    (fun s _ a hs => sound_effect (s.step_effect a) hs) steps empty []
    ⟨by simp [empty], fun _ _ => rfl, by simp [empty]⟩

/--
Switching the level comes to the same as building the log anew. Every handle has a log that was
built from some settings. As long as the log is heard, it is the one that the same settings give at
its level. That is the level to which it was switched last through any handle, or else the first
one, and all handles of the log answer it. A call with an unknown level, or for a log that is not
heard any more, changes nothing and reports nothing.
-/
theorem switching_equals_building (steps : List LogStep)
    (handle : Fin (empty.run steps).handles.length) :
    ∃ i l settings first, (empty.run steps).handles[handle.val]? = some i ∧
      (empty.run steps).logs[i]? = some l ∧
      .built i settings ∈ empty.history steps ∧ level? settings.level = some first ∧
      l.level = (switches i (empty.history steps)).getLast?.getD first ∧
      (∀ f, l.filter = some f →
        Logger.build { settings with level := (Verbosity.ofSeverity l.level).name } = .ok l) ∧
      ∀ other, (empty.run steps).handles[other]? = some i →
        (empty.run steps).step (.level other) = (empty.run steps, .level l.level, []) ∧
        ∀ raw, (empty.run steps).step (.setLevel other raw) =
          match level? raw, l.filter with
          | none, _ => (empty.run steps, .failed (.unknownLevel raw), [])
          | some _, none => (empty.run steps, .failed .reload, [])
          | some level, some _ =>
            ({ empty.run steps with logs := (empty.run steps).logs.set i (l.switch level) },
              .level level, Logger.reported l.level level) := by
  have hsound := sound_run steps
  generalize empty.run steps = s at handle hsound
  have hi : s.handles[handle.val]? = some s.handles[handle] := List.getElem?_eq_getElem handle.isLt
  have hlt := hsound.handles _ (List.getElem_mem handle.isLt)
  have hl : s.logs[s.handles[handle]]? = some s.logs[s.handles[handle]] :=
    List.getElem?_eq_getElem hlt
  obtain ⟨settings, first, hbuilt, hfirst, hlog, hlevel⟩ := hsound.logs _ _ hl
  refine ⟨_, _, settings, first.level, hi, hl, hbuilt, (Logger.build_ok hfirst).1, hlevel, ?_, ?_⟩
  . intro f hf
    have hheard := hlog.resolve_right fun hdropped => by rw [hdropped] at hf; cases hf
    rw [(Logger.build_ok hfirst).2.2.2, ← hheard]
  . intro other hother
    refine ⟨step_level hother hl, fun raw => ?_⟩
    cases hraw : level? raw with
    | none => exact step_unknown hother hl hraw
    | some level =>
      cases hf : s.logs[s.handles[handle]].filter with
      | none => exact step_gone hother hl hraw hf
      | some f => exact step_known hother hl hraw hf

/-- A call through a clone, one with an unknown level, and one when nobody listens any more. -/
example :
    let s := empty.run [.build Settings.standard, .clone 0, .setLevel 1 " Warning "]
    (s.step (.level 0)).2.1 = .level .warn ∧
      (s.step (.setLevel 0 "loud")).2 = (.failed (.unknownLevel "loud"), []) ∧
      ((s.run [.drop 0]).step (.setLevel 0 "debug")).2 = (.failed .reload, []) := by
  decide +kernel

theorem log?_build_setLevel {settings : Settings} (hl : Logger.build settings = .ok l)
    (hraw : level? raw = some level) :
    (empty.run [.build settings, .setLevel 0 raw]).log? 0 = some (l.switch level) := by
  have hbuilt : (empty.step (.build settings)).1 = ⟨[l], [0], none⟩ := by
    simp only [step, hl]
    rfl
  have hf : l.filter = some (Filter.compose l.level l.directives) := by
    rw [← (Logger.build_ok hl).2.2.1]
    rfl
  have hi : (⟨[l], [0], none⟩ : LogStore).handles[0]? = some 0 := rfl
  have hswitched := step_known hi rfl hraw hf
  rw [run, List.foldl_cons, hbuilt, List.foldl_cons, hswitched]
  rfl

/--
An event that no directive with a target, a span or a field speaks of is let through at the level of
the last directive for everything. If there is no such directive, the level that the handles answer
decides.
-/
theorem unspoken_event_enabled_iff (steps : List LogStep) {handle : Nat} {l : Logger} {f : Filter}
    (hl : (empty.run steps).log? handle = some l) (hf : l.filter = some f)
    (around : Selector → Bool) (target : String) (fields : List String)
    (hevent : ∀ d ∈ l.directives, d.isBare = false → d.speaks around target fields = false)
    (v : Verbosity) :
    (∃ i settings, .built i settings ∈ empty.history steps ∧
      readDirectives settings.directives = .ok l.directives) ∧
    (empty.run steps).step (.level handle) = (empty.run steps, .level l.level, []) ∧
    (f.enablesInside around target v fields = true ↔
      v.rank ≤ (Filter.base l.level l.directives).rank) ∧
    ((∀ d ∈ l.directives, d.isBare = false) →
      (f.enablesInside around target v fields = true ↔
        v.rank ≤ (Verbosity.ofSeverity l.level).rank)) := by
  obtain ⟨i, hi, hli⟩ := Option.bind_eq_some_iff.1 hl
  obtain ⟨settings, first, hbuilt, hfirst, hlog, -⟩ := (sound_run steps).logs i l hli
  have hheard := hlog.resolve_right fun hdropped => by rw [hdropped] at hf; cases hf
  have hdirectives : l.directives = first.directives := by
    rw [hheard]
    rfl
  have hfilter : f = Filter.compose l.level l.directives := by
    rw [hdirectives, ← Option.some.injEq, ← hf]
    exact congrArg Logger.filter hheard
  have hbase := Filter.enablesInside_compose hevent l.level v
  rw [← hfilter] at hbase
  have hiff : f.enablesInside around target v fields = true ↔
      v.rank ≤ (Filter.base l.level l.directives).rank := by rw [hbase, decide_eq_true_iff]
  refine ⟨⟨i, settings, hbuilt, ?_⟩, step_level hi hli, hiff, fun hnone => ?_⟩
  . rw [hdirectives]
    exact (Logger.build_ok hfirst).2.1
  . rwa [Filter.base_of_forall _ hnone] at hiff

/--
With a directive for one target, switching the level works for the others.
-/
theorem target_directive_follows_switch :
    ∃ l f, (empty.run [.build ⟨"info", true, true, ["h2"]⟩,
        .setLevel 0 "debug"]).log? 0 = some l ∧ l.filter = some f ∧ l.level = .debug ∧
      f.enablesInside (fun _ => false) "app" .debug ["message"] = true ∧
      f.enablesInside (fun _ => false) "app" .trace ["message"] = false := by
  have hlevel : level? "info" = some .info := by decide +kernel
  have hread : readDirectives ["h2"] = .ok [⟨some "h2", none, [], .trace⟩] :=
    readDirectives_of_toOption (by decide +kernel)
  have hraw : level? "debug" = some .debug := by decide +kernel
  have hbuild := Logger.build_of_directives (s := ⟨"info", true, true, ["h2"]⟩) hlevel hread
  have hlog := log?_build_setLevel hbuild hraw
  have hswitched := fun v => (unspoken_event_enabled_iff _ hlog rfl (fun _ => false) "app"
    ["message"] (by decide +kernel) v).2.2.2 (by decide)
  refine ⟨_, _, hlog, rfl, rfl, (hswitched .debug).2 (by decide), ?_⟩
  exact Bool.eq_false_iff.2 fun h => absurd ((hswitched .trace).1 h) (by decide)

/--
With a directive for everything, the level is switched in vain: the handle answers the new level,
but what is let through stays as it was.
-/
theorem bare_directive_outlasts_switch :
    ∃ l f, (empty.run [.build ⟨"info", true, true, ["debug"]⟩,
        .setLevel 0 "error"]).log? 0 = some l ∧ l.filter = some f ∧ l.level = .error ∧
      (∀ d ∈ l.directives, d.isBare = false → d.speaks (fun _ => false) "app" ["message"] = false) ∧
      f.enablesInside (fun _ => false) "app" .debug ["message"] = true ∧
      ¬Verbosity.debug.rank ≤ (Verbosity.ofSeverity l.level).rank := by
  have hlevel : level? "info" = some .info := by decide +kernel
  have hread : readDirectives ["debug"] = .ok [.everything .debug] := by
    rw [readDirectives, Directive.ofText_debug]
    rfl
  have hraw : level? "error" = some .error := by decide +kernel
  have hbuild := Logger.build_of_directives (s := ⟨"info", true, true, ["debug"]⟩) hlevel hread
  have hlog := log?_build_setLevel hbuild hraw
  exact ⟨_, _, hlog, rfl, rfl, by decide, by decide +kernel, by decide⟩

end LogStore

end Upkeep.Log
