import Upkeep.Proofs.Config.Handover

/-!
This module contains the way of a text from a file to the setting of a binding: the watcher of the
file hands its news to a channel, which is the feed of a dispatcher, and the binding follows a
subscription of that. What has to be watched is when each of them begins to look.
-/

namespace Upkeep.Config

deriving instance DecidableEq for Start

deriving instance DecidableEq for Slot

/--
Whether a setting is a truth value.
-/
instance (v : Bool) : (s : Setting) → Decidable (s = .free (.bool v))
  | .free (.bool w) => decidable_of_iff (w = v) (by simp)
  | .flags _ | .free .null | .free (.int _) | .free (.float _) | .free (.text _)
  | .free (.list _) | .free (.object _) => isFalse (by simp)

instance (key : String) (encoding : Encoding) (shape : Shape) (v : Bool) (b : Binding) :
    Decidable (b = ⟨key, encoding, shape, .free (.bool v)⟩) :=
  decidable_of_iff
    (b.key = key ∧ b.encoding = encoding ∧ b.shape = shape ∧ b.current = .free (.bool v))
    (by cases b; simp)

/--
A run in which a dispatcher is started with the news of a file as its feed. A start has asked for the
news, and the source has read the file. The source registers for what happens to the file, unless it
has before, and makes a channel for the news; that channel becomes the feed of the dispatcher; and
what comes after that goes on with a binding that follows a subscription of the dispatcher.
-/
structure Startup where
  key : String
  path : String
  text : String
  start : Nat
  call : Nat
  registration : Disk.Registration
  route : Route
  binding : Binding
  past : List SceneAction
  between : List SceneAction
  rest : List SceneAction

namespace Startup

variable (u : Startup)

/--
The scene before the source makes the channel.
-/
def before : Scene := (Scene.start u.key).run u.past

/--
The scene when the source has made the channel.
-/
def joined : Scene := (u.before.step (.file (.finish u.call u.registration))).1

/--
The scene before the channel becomes the feed.
-/
def asked : Scene := u.joined.run u.between

/--
The scene when the channel has become the feed.
-/
def opened : Scene := (u.asked.step (.openFile u.start u.call)).1

/--
The scene at the end.
-/
def last : Scene := u.opened.run u.rest

def later : List SceneAction := u.between ++ .openFile u.start u.call :: u.rest

def actions : List SceneAction := u.past ++ .file (.finish u.call u.registration) :: u.later

/--
The news that the watcher has handed to the channel.
-/
def handed : List Delivery :=
  Run.history (fun (s : Scene) a => (s.step a).1) (Scene.deliveries u.key u.route.feed) u.joined
    u.later

/--
How the watcher got to know the file.
-/
def sighted : List Bool :=
  Run.history (fun (s : Scene) a => (s.step a).1) (Scene.sightings u.key) (Scene.start u.key)
    u.actions

/--
What such a run keeps to: the source is not refused when it registers, the watcher is told of all
changes of the file, nobody else touches the channel or what is on the way from it to the binding,
the source is not given up, and when the channel becomes the feed, the binding follows the
subscription and nothing was handed to that yet.
-/
structure IsRegular : Prop where
  opening : u.before.dispatcher.starts[u.start]? = some .opening
  read : u.before.files.calls[u.call]? = some (.watchRead u.key u.path (.ok u.text))
  accepted : u.before.files.accepts u.key u.registration = true
  feed : u.route.feed = u.before.channels.length
  waits : ∀ a ∈ u.between, a.Leaves u.route.feed ∧ a.Awaits u.start
  loop : u.route.loop = u.asked.dispatcher.loops.length
  slot : u.asked.dispatcher.slots[u.route.slot]? = some (.empty true)
  binding : u.asked.bindings[u.route.binding]? = some u.binding
  follower : ⟨u.route.binding, u.route.slot, false⟩ ∈ u.asked.followers
  followers : ∀ f ∈ u.asked.followers, f.binding = u.route.binding ↔ f.slot = u.route.slot
  keeps : ∀ a ∈ u.rest, a.Leaves u.route.feed ∧ a.Spares u.route
  announced : Run.Obeys (fun (s : Scene) a => (s.step a).1) (Scene.Announces u.key)
    (Scene.start u.key) u.actions

variable {u}

theorem last_eq_run (u : Startup) : u.last = (Scene.start u.key).run u.actions := by
  rw [last, opened, asked, joined, before, actions, later]
  simp only [Scene.run, List.foldl_append, List.foldl_cons]

theorem watched (hu : u.IsRegular) : u.last.Watched u.key u.sighted := by
  rw [last_eq_run]
  exact .run u.actions hu.announced

theorem watched_before (hu : u.IsRegular) : ∃ h, u.before.Watched u.key h :=
  ⟨_, .run u.past (Run.Obeys.of_append hu.announced)⟩

theorem items_last (hu : u.IsRegular) : u.last.files.items = u.before.files.items := by
  have hjoined : u.joined.files.items = u.before.files.items :=
    u.before.source.items_step (.finish u.call u.registration)
  have hleaves : (SceneAction.openFile u.start u.call).Leaves u.route.feed := trivial
  have hopened : u.opened.files.items = u.asked.files.items := Scene.items_step hleaves
  rw [last, Scene.items_run _ _ fun a ha => (hu.keeps a ha).1, hopened, asked,
    Scene.items_run _ _ fun a ha => (hu.waits a ha).1, hjoined]

theorem path_of_watcher (hu : u.IsRegular) {x : Watcher}
    (hx : u.last.files.watchers.get? u.key = some x) : x.path = u.path := by
  obtain ⟨_, hbefore⟩ := watched_before hu
  have hitem : u.last.files.items.get? u.key = some x.path := (watched hu).mapped.watchers u.key x hx
  have hcall : u.before.files.items.get? u.key = some u.path :=
    hbefore.mapped.calls u.call u.key u.path _ hu.read
  rw [items_last hu, hcall, Option.some.injEq] at hitem
  exact hitem.symm

theorem state_of_idle (hu : u.IsRegular) {x : Watcher}
    (hx : u.last.files.watchers.get? u.key = some x) (hnotices : x.notices = [])
    (hpending : x.pending = none) (hknown : u.sighted.getLast? = some true) {text : String}
    (hread : u.last.files.disk.read u.path = .ok text) : x.state = .present text := by
  have hagrees := (watched hu).follows.agrees hx hnotices hpending hknown
  have hread : u.last.source.disk.read x.path = .ok text := by
    rw [path_of_watcher hu hx]
    exact hread
  rw [hread] at hagrees
  exact hagrees

theorem joined_waits (hu : u.IsRegular) :
    ∃ x, u.joined.files.watchers.get? u.key = some x ∧
      u.joined.Waits u.key u.route.feed u.start u.call x.state [] := by
  obtain ⟨hone, -⟩ := Scene.oneLoop_and_listed_of_run u.key u.past
  obtain ⟨_, hwatched⟩ := watched_before hu
  have hcall : u.before.source.calls[u.call]? = some (.watchRead u.key u.path (.ok u.text)) :=
    hu.read
  have haccepts : u.before.source.accepts u.key u.registration = true := hu.accepted
  obtain ⟨x, hx, hsupplies⟩ := FileSource.supplies_finish hwatched.members hcall haccepts
  have hchannels : u.joined.channels = u.before.channels ++ [.empty FileSource.channelCapacity] :=
    FileSource.channels_finish_of_accepts hcall haccepts
  refine ⟨x, hx, u.before.oneLoop_step _ hone, hu.opening, ?_, ?_, ?_⟩
  . rw [hu.feed]
    exact FileSource.calls_finish_of_accepts hcall haccepts
  . rw [hu.feed]
    exact hsupplies
  . rw [queueAt, hchannels, hu.feed, List.getElem?_concat_length]
    rfl

/--
What was handed over by the time the channel becomes the feed.
-/
def handedBefore (u : Startup) : List Delivery :=
  Run.history (fun (s : Scene) a => (s.step a).1) (Scene.deliveries u.key u.route.feed) u.joined
    u.between

theorem asked_waits (hu : u.IsRegular) {x : FileState}
    (hx : u.joined.Waits u.key u.route.feed u.start u.call x []) :
    u.asked.Waits u.key u.route.feed u.start u.call x u.handedBefore :=
  Run.invariant (fun (s : Scene) a => (s.step a).1) (Scene.deliveries u.key u.route.feed)
    (fun _ a => a.Leaves u.route.feed ∧ a.Awaits u.start)
    (Scene.Waits u.key u.route.feed u.start u.call x) (fun _ _ _ ha hs => hs.step ha.1 ha.2)
    u.between u.joined [] hx
    (Run.obeys_of_forall_mem _ _ _ _ fun a ha _ => hu.waits a ha)

/--
What is on the way from the feed to the binding when the channel has become the feed.
-/
def pipe (u : Startup) : Pipe := ⟨queueAt u.asked.channels u.route.feed, .empty true, u.binding⟩

theorem asked_eq_run (u : Startup) :
    u.asked =
      (Scene.start u.key).run (u.past ++ .file (.finish u.call u.registration) :: u.between) := by
  rw [asked, joined, before]
  simp only [Scene.run, List.foldl_append, List.foldl_cons]

theorem opened_feeds (hu : u.IsRegular) {x : FileState} {h : List Delivery}
    (hx : u.asked.Waits u.key u.route.feed u.start u.call x h) :
    u.opened.Feeds u.key u.route u.pipe x h := by
  have hanswer : u.asked.files.channel? u.call = some (.ok u.route.feed) := by
    have hcall : u.asked.files.calls[u.call]? = some (.watching (.ok u.route.feed)) := hx.answered
    rw [FileSource.channel?, hcall]
  have hopened : u.opened =
      { u.asked with
        dispatcher := { u.asked.dispatcher with
          starts := u.asked.dispatcher.starts.set u.start (.done true (.ok ()))
          holder := none, started := true, ended := false
          loops := u.asked.dispatcher.loops ++ [⟨u.route.feed, .running⟩] } } := by
    simp only [opened, Scene.step, hanswer, Scene.stepDispatcher, Dispatcher.step,
      Dispatcher.opened, hx.opening]
  have hsupplies := (Scene.supplies_step (a := .openFile u.start u.call) hx.supplies hx.not_ending
    trivial).1
  rw [Scene.deliveries_of_not_file (by simp), List.append_nil] at hsupplies
  have hlisted := (Scene.oneLoop_and_listed_of_run u.key
    (u.past ++ .file (.finish u.call u.registration) :: u.between)).2
  rw [← asked_eq_run] at hlisted
  have hway : u.route.Open u.opened := by
    refine ⟨u.asked.oneLoop_step _ hx.one, ?_, ?_, ?_⟩
    . rw [hopened, hu.loop]
      exact List.getElem?_concat_length
    . rw [hopened]
      exact hlisted _ _ hu.slot rfl rfl
    . rw [hopened]
      exact hu.followers
  refine ⟨hsupplies, ?_, [], ⟨hway, u.pipe, ⟨?_, ?_, ?_⟩, Pipe.law_start _ rfl⟩, ?_⟩
  . rw [hopened]
    exact hu.follower
  . rw [hopened]
    rfl
  . rw [hopened]
    exact hu.slot
  . rw [hopened]
    exact hu.binding
  . rw [← hx.queue]
    exact List.append_nil _

theorem last_feeds (hu : u.IsRegular) {x : FileState}
    (hx : u.joined.Waits u.key u.route.feed u.start u.call x []) :
    u.last.Feeds u.key u.route u.pipe x u.handed := by
  have hrun := Run.invariant (fun (s : Scene) a => (s.step a).1)
    (Scene.deliveries u.key u.route.feed) (fun _ a => a.Leaves u.route.feed ∧ a.Spares u.route)
    (Scene.Feeds u.key u.route u.pipe x) (fun _ _ _ ha hs => hs.step ha.1 ha.2) u.rest u.opened _
    (opened_feeds hu (asked_waits hu hx))
    (Run.obeys_of_forall_mem _ _ _ _ fun a ha _ => hu.keeps a ha)
  rw [handed, later, Run.history_append]
  exact hrun

/--
A file is changed any number of times before, while and after a dispatcher is started with its news,
and a binding follows the dispatcher. When everything has settled, and the watcher has been told of a
change or was made with the text that the file had then, let the text of the file be one that the
binding can read. If the watcher has handed nothing to the feed, it knew this text when it began to
serve the feed, and the binding has the setting that it had. If there was room in the feed for what
was handed to it last, the binding has the setting of the text.
-/
theorem settled_binding_has_setting_of_file (u : Startup) (hu : u.IsRegular) :
    ∃ x₀ x b, u.joined.files.watchers.get? u.key = some x₀ ∧
      u.last.files.watchers.get? u.key = some x ∧ x.path = u.path ∧
      u.last.bindings[u.route.binding]? = some b ∧
      (u.last.IsSettled → x.notices = [] → x.pending = none → u.sighted.getLast? = some true →
        ∀ text v, u.last.files.disk.read u.path = .ok text →
          u.binding.decoded? ⟨text, .put⟩ = some v →
          (u.handed = [] → x₀.state = .present text ∧ b.current = u.binding.current) ∧
          ∀ r, u.handed.getLast? = some ⟨r, true⟩ → b.current = v) := by
  obtain ⟨x₀, hx₀, hwaits⟩ := joined_waits hu
  have hfeeds := last_feeds hu hwaits
  obtain ⟨x, hx, hnewest⟩ := hfeeds.supplies.watcher
  obtain ⟨b, hb⟩ := hfeeds.has_binding
  refine ⟨x₀, x, b, hx₀, hx, path_of_watcher hu hx, hb, ?_⟩
  intro hsettled hnotices hpending hknown text v hread hv
  obtain ⟨found, hcurrent, hfound⟩ := hfeeds.current_of_settled hsettled hb
  rw [state_of_idle hu hx hnotices hpending hknown hread] at hnewest
  refine ⟨?_, ?_⟩
  . -- what the watcher knew when the channel joined it is what it knows now
    intro hnone
    rw [hnone] at hfound hnewest
    refine ⟨(FileState.response_injective hnewest).symm, ?_⟩
    rw [hcurrent, List.getLast?_eq_none_iff.1 hfound, Binding.after_of_none _ _ (by simp)]
    rfl
  . intro r hlast
    obtain ⟨earlier, hhanded⟩ := List.getLast?_eq_some_iff.1 hlast
    have hr : r = ⟨text, .put⟩ := by
      rw [hhanded, newest, List.getLast?_concat] at hnewest
      exact hnewest.symm
    rw [hhanded, arrived_append, arrived_singleton, if_pos rfl, List.getLast?_concat] at hfound
    obtain ⟨before, hfound⟩ := List.getLast?_eq_some_iff.1 hfound
    have hdecoded : u.pipe.binding.decoded? r = some v := hr ▸ hv
    rw [hcurrent, hfound, Binding.after_concat, hdecoded]
    rfl

def bytes (text : String) : List UInt8 := text.toUTF8.data.toList

/--
A binding has read the setting `false` from a file and follows a dispatcher, which is about to ask
for the news of the file.
-/
def loading : List SceneAction :=
  [.renew (.ofList [("flags", "$DIR/flags")]),
   .file (.change (.write "$DIR/flags" (bytes "false"))), .file (.get "flags"), .file (.read 0),
   .file (.finish 0 (.ok FileSource.flagsEntry)),
   .bind ⟨"flags", .json, .free, .free (.bool false)⟩, .dispatcher .subscribe, .follow 0 0,
   .dispatcher .start, .dispatcher (.acquire 0)]

def untouched : Startup where
  key := "flags"
  path := "$DIR/flags"
  text := "false"
  start := 0
  call := 1
  registration := .ok FileSource.flagsEntry
  route := ⟨0, 0, 0, 0⟩
  binding := ⟨"flags", .json, .free, .free (.bool false)⟩
  past := loading ++ [.file (.watch "flags"), .file (.read 1)]
  between := []
  rest := []

/--
The file is written before the channel is the feed, and is deleted and written again after that.
-/
def rewritten : Startup :=
  { untouched with
    between := [.file (.change (.write "$DIR/flags" (bytes "nul"))), .file (.look "flags"),
      .file (.handle "flags")]
    rest := [.dispatcher (.receive 0), .turn 0, .file (.change (.delete "$DIR/flags")),
      .file (.look "flags"), .file (.change (.write "$DIR/flags" (bytes "true"))),
      .file (.handle "flags"), .file (.look "flags"), .dispatcher (.receive 0),
      .file (.handle "flags"), .dispatcher (.receive 0), .turn 0] }

theorem rewritten_isRegular : rewritten.IsRegular where
  opening := by decide +kernel
  read := by decide +kernel
  accepted := by decide +kernel
  feed := by decide +kernel
  waits := by
    intro a ha
    simp only [rewritten, List.mem_cons, List.not_mem_nil, or_false] at ha
    rcases ha with rfl | rfl | rfl <;> exact ⟨trivial, trivial⟩
  loop := by decide +kernel
  slot := by decide +kernel
  binding := by
    have hbinding : ∃ b ∈ rewritten.asked.bindings[0]?,
        b = ⟨"flags", .json, .free, .free (.bool false)⟩ := by decide +kernel
    obtain ⟨b, hb, rfl⟩ := hbinding
    exact hb
  follower := by decide +kernel
  followers := by decide +kernel
  keeps := by
    intro a ha
    simp only [rewritten, List.mem_cons, List.not_mem_nil, or_false] at ha
    rcases ha with rfl | rfl | rfl | rfl | rfl | rfl | rfl | rfl | rfl | rfl | rfl <;>
      exact ⟨trivial, trivial⟩
  announced := by decide +kernel

theorem rewritten_reaches_binding :
    rewritten.last.IsSettled ∧ rewritten.last.files.disk.read "$DIR/flags" = .ok "true" ∧
      ∃ b, rewritten.last.bindings[0]? = some b ∧ b.current = .free (.bool true) := by
  obtain ⟨x₀, x, b, hx₀, hx, -, hb, hends⟩ :=
    settled_binding_has_setting_of_file rewritten rewritten_isRegular
  have hsettled : rewritten.last.IsSettled := by decide +kernel
  have hidle : ∀ x ∈ rewritten.last.files.watchers.get? "flags",
      x.notices = [] ∧ x.pending = none := by decide +kernel
  have hsighted : rewritten.sighted.getLast? = some true := by decide +kernel
  have hread : rewritten.last.files.disk.read "$DIR/flags" = .ok "true" := by decide +kernel
  have hhanded : rewritten.handed.getLast? = some ⟨⟨"true", .put⟩, true⟩ := by decide +kernel
  obtain ⟨hnotices, hpending⟩ := hidle x hx
  obtain ⟨-, htrue⟩ := hends hsettled hnotices hpending hsighted "true" (.free (.bool true)) hread
    rfl
  exact ⟨hsettled, hread, b, hb, htrue _ hhanded⟩

/--
The file is written after the binding has read it and before the source reads it to watch it.
-/
def rewrittenEarly : Startup :=
  { untouched with
    text := "true"
    past := loading ++ [.file (.change (.write "$DIR/flags" (bytes "true"))),
      .file (.watch "flags"), .file (.read 1)] }

/--
The file is written eleven times before the loop of the dispatcher goes on.
-/
def rewrittenOften : Startup :=
  { untouched with
    rest := ((List.replicate 5 ["null", "false"]).flatten ++ ["true"]).flatMap (fun text =>
        [.file (.change (.write "$DIR/flags" (bytes text))), .file (.look "flags"),
         .file (.handle "flags")]) ++
      List.replicate 10 (.dispatcher (.receive 0)) ++ [.turn 0] }

/--
A binding that has read `false` still has this setting when everything has settled and the file has
the text `true`.
-/
def Misses (u : Startup) : Prop :=
  u.before.files.answer? 0 = some (.ok ⟨"false", .null⟩) ∧ u.last.IsSettled ∧
    (∀ x ∈ u.last.files.watchers.get? "flags", x.notices = [] ∧ x.pending = none) ∧
    u.sighted.getLast? = some true ∧ u.last.files.disk.read "$DIR/flags" = .ok "true" ∧
    ∃ b ∈ u.last.bindings[0]?, b = ⟨"flags", .json, .free, .free (.bool false)⟩

instance (u : Startup) : Decidable u.Misses := inferInstanceAs (Decidable (_ ∧ _))

theorem rewritten_early_or_often_misses :
    Binding.ofAnswer "flags" .json .free (.ok ⟨"false", .null⟩) = .ok untouched.binding ∧
      untouched.binding.decoded? ⟨"true", .put⟩ = some (.free (.bool true)) ∧
      rewrittenEarly.Misses ∧ rewrittenOften.Misses :=
  ⟨rfl, rfl, by decide +kernel, by decide +kernel⟩

end Startup

end Upkeep.Config
