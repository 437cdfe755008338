import CodeBridge.Proofs.Concurrency.Turns
import CodeBridge.Proofs.Session.Tools

/-!
# Turns at the slot

Whatever a call does, it comes to the line of the slot and leaves it again; when the session has been
stopped it stays in that line for its turn only.  A call on the session itself that begins then does
nothing else.

* `Heedful`   a routine on a host keeps to the turns;
* `heeds_deed`   so does every call;
* `Orderly`, `Attended`   the line, the calls and how each of them stands;
* `attended_apply`   it stays so, whatever happens.
-/

namespace CodeBridge

namespace Office

variable {k : Nat} {α β : Type} {quick : Prop}

/-! ## calls -/

/-- A routine keeps to the turns at the slot; the stopped session is over. -/
abbrev Heedful (quick : Prop) (Q : α → Stand → Prop) (r : Routine Host α) (x : Stand) : Prop :=
  r.Heeds Host.slotLock (fun h => h.slot = .stopped) quick Q x

/-- It has nothing to do with the slot before and after. -/
structure Visits (quick : Prop) (r : Routine Host α) : Prop where
  heeds : Heedful quick (fun _ y => y = .out) r .out

def SlotSame (h h' : Host) : Prop := h'.slotLock = h.slotLock ∧ h'.slot = h.slot

theorem visits_apart {r : Routine Host α} (h : r.MovesBy SlotSame) (hq : ¬ quick) :
    Visits quick r :=
  ⟨Routine.heeds_apart h hq rfl fun _ _ hR =>
    ⟨hR.1, fun hs => hR.2.symm.trans hs, fun _ hs => hR.2.trans hs⟩⟩

theorem movesBy_onClient (r : Routine Client α) : (Host.onClient k r).MovesBy SlotSame :=
  (Routine.movesBy_any r).zoom fun _ _ _ => ⟨rfl, rfl⟩

theorem visits_onClient (r : Routine Client α) (hq : ¬ quick) : Visits quick (Host.onClient k r) :=
  visits_apart (movesBy_onClient r) hq

theorem visits_speaking {r : Routine Host α} (h : r.MovesBy (Says { deed := .start })) (hq : ¬ quick) :
    Visits quick r :=
  visits_apart (h.mono fun _ _ hs => ⟨hs.slotLock, hs.slot⟩) hq

theorem visits_done (a : α) : Visits quick (.done a) := ⟨rfl⟩

theorem Visits.bind {r : Routine Host α} {f : α → Routine Host β} (h : Visits quick r)
    (hf : ∀ a, Visits quick (f a)) : Visits quick (r.bind f) :=
  ⟨h.heeds.bind fun a y hy => by
    rw [hy]
    exact (hf a).heeds⟩

theorem Visits.andThen {r : ToolRoutine α} {next : α → ToolRoutine β} (h : Visits quick r)
    (hnext : ∀ a, Visits quick (next a)) : Visits quick (Tool.andThen r next) := by
  refine h.bind fun result => ?_
  cases result with
  | ok a => exact hnext a
  | error fault => exact visits_done _

/-! ### the slot -/

theorem visits_reading (f : Host → α) : Visits quick (Host.reading (.read f)) := by
  have hhold : Heedful quick (fun a y => y = .out ∧ True) (Host.reading (.read f)) .out := by
    refine Routine.heeds_hold (fun _ _ => rfl) (fun _ _ => Iff.rfl) fun n s _ _ => ?_
    exact ⟨id, _, .apart rfl id, trivial, rfl, rfl⟩
  exact ⟨hhold.mono fun _ _ hy => hy.1⟩

/-- A start that has found the session not stopped leaves it so. -/
def StillOn (h h' : Host) : Prop :=
  h'.slotLock = h.slotLock ∧ (h'.slot = .stopped → h.slot = .stopped)

theorem SlotSame.stillOn {h h' : Host} (hs : SlotSame h h') : StillOn h h' :=
  ⟨hs.1, fun ht => hs.2.symm.trans ht⟩

theorem stillOn_onClient (r : Routine Client α) : (Host.onClient k r).MovesBy StillOn :=
  (movesBy_onClient r).mono fun _ _ hs => hs.stillOn

theorem stillOn_bringUp (k : Nat) : (Session.bringUp k).MovesBy StillOn := by
  have hset (slot : Slot) (hslot : slot ≠ .stopped) :
      (Routine.change (Host.setSlot slot)).MovesBy StillOn :=
    Routine.movesBy_change fun _ => ⟨rfl, fun hs => absurd hs hslot⟩
  refine Routine.MovesBy.bind (Routine.movesBy_read fun _ => ⟨rfl, id⟩) fun host => ?_
  cases uriOfPath host.disk.cwd host.root with
  | error fault => exact Routine.movesBy_done _
  | ok uri =>
    refine Routine.MovesBy.bind (stillOn_onClient _) fun result => ?_
    cases result with
    | ok _ => exact (hset (.running k) nofun).bind fun _ => Routine.movesBy_done _
    | error fault =>
      refine Routine.MovesBy.bind (stillOn_onClient _) fun _ => ?_
      exact (hset .idle nofun).bind fun _ => Routine.movesBy_done _

theorem stillOn_launch : (Routine.act Host.launch).MovesBy StillOn := by
  refine Routine.movesBy_act fun h => ?_
  cases hl : h.launch.1 with
  | error fault =>
    unfold Host.launch at hl ⊢
    cases hp : Launch.ofSettings h.disk h.environment h.settings with
    | error fault => exact ⟨rfl, id⟩
    | ok program => rw [hp] at hl; cases hl
  | ok k =>
    unfold Host.launch at hl ⊢
    cases hp : Launch.ofSettings h.disk h.environment h.settings with
    | error fault => rw [hp] at hl; cases hl
    | ok program => exact ⟨rfl, id⟩

/-- A start that has its turn either finds the session stopped, and goes, or takes its time. -/
theorem heeds_startHeld (n : Nat) : Heedful quick
    (fun _ y => True ∧ y.served = true ∧ y.seat? = some (n, false)) Session.startHeld
    (.inside n false) := by
  have hlook : Heedful quick (fun slot y => slot = .stopped ∧ y = .inside n false ∨
      slot ≠ .stopped ∧ ¬ quick ∧ y = .busy n) (.read Host.slot) (.inside n false) := by
    intro s hq _
    by_cases hs : s.slot = .stopped
    · exact ⟨id, _, .apart rfl id, .inl ⟨hs, rfl⟩⟩
    · exact ⟨id, _, .engage rfl hs hs, .inr ⟨hs, fun h => hs (hq h), rfl⟩⟩
  have hbusy {r : Routine Host (Except ClientError Unit)} (hr : r.MovesBy StillOn)
      (hq : ¬ quick) : Heedful quick
      (fun _ y => True ∧ y.served = true ∧ y.seat? = some (n, false)) r (.busy n) := by
    have happart : Heedful quick (fun _ y => y = .busy n) r (.busy n) :=
      Routine.heeds_apart hr hq rfl fun _ _ hR => ⟨hR.1, hR.2, nofun⟩
    exact happart.mono fun _ _ hy => hy ▸ ⟨trivial, rfl, rfl⟩
  refine Routine.Heeds.bind hlook fun slot y hy => ?_
  rcases hy with ⟨rfl, rfl⟩ | ⟨hslot, hq, rfl⟩
  · exact ⟨trivial, rfl, rfl⟩
  · refine hbusy ?_ hq
    cases slot with
    | stopped => exact absurd rfl hslot
    | running k =>
      refine Routine.MovesBy.bind (stillOn_onClient _) fun life => ?_
      split
      · exact stillOn_bringUp k
      · exact Routine.movesBy_done _
    | idle =>
      refine Routine.MovesBy.bind stillOn_launch fun launched => ?_
      cases launched with
      | ok k => exact stillOn_bringUp k
      | error fault => exact Routine.movesBy_done _

theorem visits_start : Visits quick Session.start := by
  have hhold : Heedful quick (fun _ y => y = .out ∧ True) Session.start .out :=
    Routine.heeds_hold (fun _ _ => rfl) (fun _ _ => Iff.rfl) heeds_startHeld
  exact ⟨hhold.mono fun _ _ hy => hy.1⟩

/-- When the session has been stopped before, that is all a shutdown does. -/
theorem visits_shutdown : Visits quick Session.shutdown := by
  have hstop : Heedful quick (fun slot y => y = .out ∧ (quick → slot = .stopped)) Session.stop
      .out := by
    refine Routine.heeds_hold (fun _ _ => rfl) (fun _ _ => Iff.rfl) fun n s hq _ => ?_
    exact ⟨fun _ => rfl, _, .act rfl, hq, rfl, rfl⟩
  refine ⟨Routine.Heeds.bind hstop fun slot y hy => ?_⟩
  obtain ⟨rfl, hslot⟩ := hy
  cases slot with
  | idle => exact (visits_done _).heeds
  | stopped => exact (visits_done _).heeds
  | running k =>
    have hq : ¬ quick := fun h => nomatch hslot h
    have hleave : Visits quick ((Host.onClient k Client.readLifecycle).bind fun lifecycle =>
        if lifecycle = .initialized then Host.onClient k Client.shutdown
        else Host.onClient k Client.terminate) := by
      refine (visits_onClient _ hq).bind fun life => ?_
      split
      · exact visits_onClient _ hq
      · exact visits_onClient _ hq
    exact hleave.heeds

/-! ### tools -/

theorem visits_toolClient : Visits quick Tool.client :=
  (visits_reading _).bind fun _ => visits_done _

theorem visits_openDocument (file : Path) (hq : ¬ quick) :
    Visits quick (Tool.openDocument file) := by
  refine (visits_speaking (looks_read id) hq).bind fun host => ?_
  refine (visits_done _).andThen fun path => ?_
  refine (visits_speaking (looks_readText path) hq).bind fun text => ?_
  refine (visits_done _).andThen fun text => ?_
  refine visits_toolClient.andThen fun k => ?_
  exact (visits_onClient _ hq).bind fun _ => visits_done _

theorem visits_close (doc : Tool.OpenDocument) (hq : ¬ quick) : Visits quick doc.close :=
  (visits_onClient _ hq).bind fun _ => visits_done _

theorem visits_ask {file : Path} {what : String}
    {question : Tool.OpenDocument → Routine Client (Except ClientError α)} (hq : ¬ quick) :
    Visits quick (Tool.ask file what question) := by
  refine (visits_openDocument file hq).andThen fun doc => ?_
  refine (visits_onClient _ hq).bind fun answer => ?_
  exact (visits_close doc hq).bind fun _ => visits_done _

theorem visits_places {file : Path} {line column : UInt32} {what : String}
    {question : String → Position → Routine Client (Except ClientError (List Location))}
    (hq : ¬ quick) : Visits quick (Tool.places file line column what question) := by
  refine (visits_done _).andThen fun p => (visits_ask hq).andThen fun out => ?_
  exact (visits_speaking (looks_foundPlaces out.2 []) hq).bind fun _ => visits_done _

theorem visits_onDisk {work : Routine Disk (Except EditError α)}
    {f : Except EditError α → Except ToolError β} (hq : ¬ quick) :
    Visits quick ((Tool.onDisk work).bind fun result => .done (f result)) :=
  (visits_speaking (looks_onDisk work) hq).bind fun _ => visits_done _

theorem visits_dispatch (request : ToolRequest) (hq : ¬ quick) :
    Visits quick (Tool.dispatch request) := by
  cases request with
  | gotoDefinition | findReferences | findImplementers =>
    exact (visits_places hq).bind fun _ => visits_done _
  | hover =>
    refine Visits.bind ?_ fun _ => visits_done _
    exact (visits_done _).andThen fun _ => (visits_ask hq).andThen fun _ => visits_done _
  | getDiagnostics file wait =>
    refine Visits.bind ?_ fun _ => visits_done _
    refine (visits_openDocument file hq).andThen fun doc => ?_
    refine (visits_onClient _ hq).bind fun found => ?_
    exact (visits_close doc hq).bind fun _ => visits_done _
  | listDocumentSymbols file =>
    refine Visits.bind ?_ fun _ => visits_done _
    exact (visits_ask hq).andThen fun _ => visits_done _
  | searchSymbol query =>
    refine Visits.bind ?_ fun _ => visits_done _
    unfold Tool.searchSymbol
    dsimp only
    split
    · exact visits_done _
    · exact visits_toolClient.andThen fun k =>
        (visits_onClient _ hq).bind fun _ => visits_done _
  | renameSymbol file line column newName =>
    refine Visits.bind ?_ fun _ => visits_done _
    unfold Tool.renameSymbol
    dsimp only
    split
    · exact visits_done _
    · refine (visits_done _).andThen fun p => (visits_ask hq).andThen fun out => ?_
      obtain ⟨doc, outcome⟩ := out
      dsimp only
      split
      · exact visits_done _
      · exact visits_onDisk hq
  | formatCode file =>
    refine Visits.bind ?_ fun _ => visits_done _
    refine (visits_ask hq).andThen fun out => ?_
    obtain ⟨doc, edits⟩ := out
    dsimp only
    split
    · exact visits_done _
    · exact visits_onDisk hq
  | organizeImports file =>
    refine Visits.bind ?_ fun _ => visits_done _
    refine (visits_ask hq).andThen fun out => ?_
    obtain ⟨doc, actions⟩ := out
    dsimp only
    split
    · exact visits_done _
    · split
      · exact visits_onDisk hq
      · exact visits_done _
      · exact visits_done _

/-! ### all of them -/

/-- It is asked of the session, and of nobody else. -/
def Deed.ofSession : Deed → Bool
  | .start | .client | .isRunning | .shutdown => true
  | _ => false

theorem visits_deed (deed : Deed) (hq : quick → deed.ofSession = true) :
    Visits quick deed.routine := by
  have hother (h : deed.ofSession = false) : ¬ quick := fun hquick =>
    Bool.false_ne_true (h.symm.trans (hq hquick))
  cases deed with
  | start => exact visits_start.bind fun _ => visits_done _
  | client => exact (visits_reading _).bind fun _ => visits_done _
  | isRunning => exact (visits_reading _).bind fun _ => visits_done _
  | shutdown => exact visits_shutdown.bind fun _ => visits_done _
  | handshake | farewell | terminate =>
    exact (visits_onClient _ (hother rfl)).bind fun _ => visits_done _
  | tool request => exact (visits_dispatch request (hother rfl)).bind fun _ => visits_done _

end Office

end CodeBridge
