import CodeBridge.Proofs.Session.Documents

/-!
# What the tools do

A tool that is about a file takes hold of one document and lets go of it, whatever comes of its
question; when it fails before, it has told the server nothing of a document.

* `untouched`, `closed`, `settled`   how a tool call is noted before and after;
* `owes_openDocument`, `owes_ask`   the ways of a document;
* `owes_dispatch`   all tools.
-/

namespace CodeBridge

namespace Office

open Pact
open Tool (OpenDocument)

variable {i k : Nat} {α β : Type} {e : Entry}

/-! ## parts that only look -/

theorem says_apart {h h' : Host} (hclients : h'.clients = h.clients) (hslot : h'.slot = h.slot)
    (hlock : h'.slotLock = h.slotLock) : Says e h h' := by
  have hsame (k : Nat) : h'.clientAt k = h.clientAt k := by
    unfold Host.clientAt
    rw [hclients]
  have hcount : h'.clients.length = h.clients.length := by rw [hclients]
  refine says_hushed ⟨hslot, hlock, Nat.le_of_eq hcount.symm, ?_, ?_, ?_, ?_⟩ ⟨hcount, ?_⟩
  all_goals intro k; rw [hsame k]
  exact id

theorem looks_read (f : Host → α) : (Routine.read f).MovesBy (Says e) :=
  Routine.movesBy_read fun _ => says_apart rfl rfl rfl

theorem looks_offload : (Routine.offload : Routine Host Unit).MovesBy (Says e) :=
  ⟨fun _ => says_apart rfl rfl rfl, trivial⟩

theorem looks_readText (path : Path) : (Tool.readText path).MovesBy (Says e) :=
  (looks_read _).bind fun _ => looks_offload.bind fun _ => Routine.movesBy_done _

theorem looks_onDisk (work : Routine Disk α) : (Tool.onDisk work).MovesBy (Says e) := by
  have hfiles : (Tool.onFiles work.handedOver).MovesBy (Says e) :=
    (Routine.movesBy_any _).zoom fun _ _ _ => says_apart rfl rfl rfl
  exact hfiles.bind fun _ => looks_offload.bind fun _ => Routine.movesBy_done _

theorem looks_foundPlaces (locations : List Location) (previews : Tool.Previews) :
    (Tool.foundPlaces locations previews).MovesBy (Says e) := by
  induction locations generalizing previews with
  | nil => exact Routine.movesBy_done _
  | cons l ls ih =>
    unfold Tool.foundPlaces
    cases pathOfUri l.uri with
    | error fault => exact ih previews
    | ok path =>
      dsimp only
      cases previews.get? path with
      | some lines => exact (ih previews).bind fun _ => Routine.movesBy_done _
      | none =>
        exact (looks_readText path).bind fun text => (ih _).bind fun _ => Routine.movesBy_done _

/-! ## a tool call -/

structure Opener (e : Entry) : Prop extends Blank e where
  tool : e.deed.isTool = true

def untouched (e : Entry) : Assertion (pact i) := knows e (fun _ => True) ((lasts_const True).firm e)

def closed (e : Entry) : Assertion (pact i) :=
  .any fun doc : Nat × String =>
    knows { e with grip := .released doc.1 doc.2 } (fun _ => True) ((lasts_const True).firm _)

/-- It has ended, or may fail. -/
def settled (e : Entry) : Except ToolError α → Assertion (pact i)
  | .ok _ => closed e
  | .error fault => bif fault.isEarly then untouched e else closed e

def opened (e : Entry) : Except ToolError OpenDocument → Assertion (pact i)
  | .ok doc => knows { e with grip := .holds doc.client doc.uri }
      (fun w => doc.client < w.1.clients.length) ((lasts_count doc.client).firm _)
  | .error fault => (Assertion.fact (fault.isEarly = true)).and (untouched e)

theorem settled_error {fault : ToolError} {w : World} (h : fault.isEarly = true)
    (hw : (untouched e : Assertion (pact i)).Holds w) :
    (settled e (.error fault : Except ToolError α) : Assertion (pact i)).Holds w := by
  unfold settled
  dsimp only
  rw [h]
  exact hw

theorem owes_toolThen {P : Assertion (pact i)} {Q : Except ToolError α → Assertion (pact i)}
    {R : Except ToolError β → Assertion (pact i)} {r : ToolRoutine α} {next : α → ToolRoutine β}
    (h : Owes P r Q) (hok : ∀ a, Owes (Q (.ok a)) (next a) R)
    (herror : ∀ fault w, (Q (.error fault)).Holds w → (R (.error fault)).Holds w) :
    Owes P (Tool.andThen r next) R := by
  refine h.bind fun result => ?_
  cases result with
  | ok a => exact hok a
  | error fault => exact owes_done fun w _ => herror fault w

theorem owes_check {P : Assertion (pact i)} {R : Except ToolError β → Assertion (pact i)}
    {x : Except ToolError α} {next : α → ToolRoutine β} (hok : ∀ a, Owes P (next a) R)
    (herror : ∀ fault w, x = .error fault → P.Holds w → (R (.error fault)).Holds w) :
    Owes P (Tool.andThen (Tool.ofExcept x) next) R := by
  cases x with
  | ok a => exact hok a
  | error fault => exact owes_done fun w _ => herror fault w rfl

theorem owes_untouched {r : Routine Host α} (h : Opener e) (hr : r.MovesBy (Says e)) :
    Owes (untouched e : Assertion (pact i)) r fun _ => untouched e := owes_speaking hr h.view

/-! ### the client of the session -/

structure Shown (late : Bool) (slot : Slot) (h : Host) : Prop where
  finds : h.slot = slot
  known : ∀ k, slot = .running k → k < h.clients.length
  late : late = true → slot = .stopped

theorem seated_shown (late : Bool) (slot : Slot) : Seated fun w => Shown late slot w.1 :=
  fun _ _ hl hk hp =>
    ⟨hk.slot.trans hp.finds, fun k hs => (hp.known k hs).trans_le hl.count, hp.late⟩

theorem Sound.shown {w : World} (hs : Sound (board w.1) w.2) (he : w.2.entries[i]? = some e) :
    Shown e.late w.1.slot w.1 where
  finds := rfl
  known := hs.slotted.inside
  late hl := hs.slotted.late e.toStanding
    (List.mem_of_getElem? (getElem?_mapped (·.toStanding) he)) hl

/-- A look at the slot; a call may note what it leaves behind. -/
theorem owes_lookSlot {f : Slot → α} {Q : α → Assertion (pact i)} (h : Blank e)
    (view : Host → Option Host) (hview : ∀ h, view h = none ∨ view h = some h)
    (hend : ∀ slot w, Shown e.late slot w.1 →
      w.2.entries[i]? = some { e with view := view w.1 } → (Q (f slot)).Holds w) :
    Owes (untouched e : Assertion (pact i)) (Host.reading (.read fun h => f h.slot)) Q := by
  let R (n : Nat) (a : α) : Assertion (pact i) := .any fun slot =>
    seated n true e (fun w => Shown e.late slot w.1 ∧ a = f slot)
      ((seated_shown e.late slot).and (lasts_const _).seated)
  refine owes_slot (R := R) (lasts_const True) h.toFree h.seat (fun n => ?_)
    fun a n w hs hp => ?_
  · refine owes_move (f := fun h : Host => (f h.slot, h)) fun w hs hp => ?_
    have hspeaks : Says { e with seat := some (n, true) } w.1 w.1 := says_apart rfl rfl rfl
    obtain ⟨hmove, hsecure⟩ := hspeaks.move hs hp.1 h.view
    have hshown := hs.shown (e := { e with seat := some (n, true) }) hp.1
    exact ⟨_, hmove, w.1.slot, getElem?_put hp.1, hp.2.1, hshown, rfl⟩
  · obtain ⟨slot, he, hholds, hshown, rfl⟩ := hp
    refine ⟨e, { e with view := view (w.1.setSlotLock (w.1.slotLock.leave n)) }, h.seat, he, hholds,
      ⟨rfl, hview _, ?_, fun hw => hw, .inl⟩, fun w' _ hw' he' => ?_⟩
    · exact fun hl => absurd (h.leaving.symm.trans hl) Bool.false_ne_true
    · rw [← hw'] at he'
      refine hend slot w' ?_ he'
      rw [hw']
      exact ⟨hshown.finds, hshown.known, hshown.late⟩

theorem owes_toolClient (h : Opener e) : Owes (untouched e : Assertion (pact i)) Tool.client
    fun
      | .ok k => knows e (fun w => k < w.1.clients.length) ((lasts_count k).firm e)
      | .error fault => (Assertion.fact (fault.isEarly = true)).and (untouched e) := by
  have hlasts (result : Except ClientError Nat) :
      Lasts fun w => ∀ k, result = .ok k → k < w.1.clients.length :=
    fun w w' hl hp k hk => (hp k hk).trans_le hl.count
  have hlook := owes_lookSlot (i := i) (f := Session.clientOfSlot)
    (Q := fun result => knows e _ ((hlasts result).firm e)) h.toBlank (fun _ => none)
    (fun _ => .inl rfl) fun slot w hshown he => ⟨?_, fun k hk => ?_⟩
  · refine Owes.bind hlook fun result => ?_
    cases result with
    | ok k => exact owes_done fun w _ hp => ⟨hp.1, hp.2 k rfl⟩
    | error fault => exact owes_done fun w _ hp => ⟨rfl, hp.1, trivial⟩
  · rw [he, ← h.view]
  · cases slot with
    | running c =>
      rw [← Except.ok.inj hk]
      exact hshown.known c rfl
    | idle => cases hk
    | stopped => cases hk

/-! ### the document -/

theorem owes_holdOpen (h : Opener e) (path : Path) (text : String) :
    Owes (knows e (fun w => k < w.1.clients.length) ((lasts_count k).firm e) : Assertion (pact i))
      (Tool.holdOpen path text k) (opened e) := by
  refine Owes.bind (owes_openDocument ((lasts_count k).firm e) h.toFree h.tool h.grip
    fun _ hp => hp) fun held => ?_
  cases held with
  | ok _ => exact owes_done fun _ _ hp => hp
  | error fault => exact owes_done fun _ _ hp => ⟨rfl, hp.1, trivial⟩

/-- Whoever opens a document holds it, or has told the server nothing of it. -/
theorem owes_toolDocument (h : Opener e) (file : Path) :
    Owes (untouched e : Assertion (pact i)) (Tool.openDocument file) (opened e) := by
  refine Owes.bind (owes_untouched h (looks_read id)) fun host => ?_
  refine owes_check (fun path => ?_) fun fault w hx hp => ⟨?_, hp⟩
  · refine Owes.bind (owes_untouched h (looks_readText path)) fun text => ?_
    refine owes_check (fun text => ?_) fun fault w hx hp => ⟨?_, hp⟩
    · exact owes_toolThen (owes_toolClient h) (fun k => owes_holdOpen h path text)
        fun fault w hp => hp
    · cases text with
      | ok text => cases hx
      | error fault => rw [← Except.error.inj hx]; rfl
  · unfold Tool.resolve at hx
    cases hpath : normalizePath host.disk.cwd (host.root.join file) with
    | ok path => rw [hpath] at hx; cases hx
    | error fault => rw [hpath] at hx; rw [← Except.error.inj hx]; rfl

theorem owes_toolClose (h : Opener e) (doc : OpenDocument) :
    Owes (opened e (.ok doc) : Assertion (pact i)) doc.close fun _ => closed e := by
  have hfree : Free { e with grip := .holds doc.client doc.uri } := ⟨h.place, h.view⟩
  refine Owes.bind (owes_closeDocument ((lasts_count doc.client).firm _) hfree h.tool rfl
    fun _ hp => hp) fun _ => ?_
  exact owes_done fun w _ hp => ⟨(doc.client, doc.uri), hp.1, trivial⟩

theorem owes_held (h : Opener e) {doc : OpenDocument} {r : Routine Client α} (hr : Asks r) :
    Owes (opened e (.ok doc) : Assertion (pact i)) (Host.onClient doc.client r)
      fun _ => opened e (.ok doc) :=
  hr.owes (e := { e with grip := .holds doc.client doc.uri }) ((lasts_count doc.client).firm _)
    ⟨h.place, h.view⟩ h.tool fun _ hp => hp

theorem owes_ask (h : Opener e) (file : Path) (what : String)
    {question : OpenDocument → Routine Client (Except ClientError α)}
    (hq : ∀ doc, Asks (question doc)) :
    Owes (untouched e : Assertion (pact i)) (Tool.ask file what question) (settled e) := by
  refine owes_toolThen (owes_toolDocument h file) (fun doc => ?_)
    fun fault w hp => settled_error hp.1 hp.2
  refine Owes.bind (owes_held h (hq doc)) fun answer => ?_
  refine Owes.bind (owes_toolClose h doc) fun _ => ?_
  cases answer with
  | ok a => exact owes_done fun _ _ hp => hp
  | error fault => exact owes_done fun _ _ hp => hp

theorem owes_closed {r : Routine Host α} (h : Opener e)
    (hr : ∀ e : Entry, r.MovesBy (Says e)) :
    Owes (closed e : Assertion (pact i)) r fun _ => closed e :=
  owes_any fun doc => by
    let f : Entry := { e with grip := .released doc.1 doc.2 }
    have hspeaks : Owes (knows f (fun _ => True) ((lasts_const True).firm f) : Assertion (pact i)) r
        fun _ => knows f (fun _ => True) ((lasts_const True).firm f) := owes_speaking (hr f) h.view
    exact hspeaks.mono fun _ _ _ hp => ⟨doc, hp⟩

theorem owes_asked (h : Opener e) (file : Path) (what : String)
    {question : OpenDocument → Routine Client (Except ClientError α)}
    {next : OpenDocument × α → ToolRoutine β} (hq : ∀ doc, Asks (question doc))
    (hnext : ∀ out, Owes (closed e : Assertion (pact i)) (next out) (settled e)) :
    Owes (untouched e : Assertion (pact i)) (Tool.andThen (Tool.ask file what question) next)
      (settled e) :=
  owes_toolThen (owes_ask h file what hq) hnext fun _ _ hp => hp

theorem owes_finished {result : Except ToolError α} (h : ∀ fault, result = .error fault →
    fault.isEarly = false) : Owes (closed e : Assertion (pact i)) (.done result) (settled e) := by
  refine owes_done fun w _ hp => ?_
  cases result with
  | ok a => exact hp
  | error fault =>
    unfold settled
    dsimp only
    rw [h fault rfl]
    exact hp

/-! ## the tools -/

theorem owes_position {line column : UInt32} {next : Position → ToolRoutine β}
    (hok : ∀ p, Owes (untouched e : Assertion (pact i)) (next p) (settled e)) :
    Owes (untouched e : Assertion (pact i))
      (Tool.andThen (Tool.ofExcept (Tool.position line column)) next) (settled e) := by
  refine owes_check hok fun fault w hx hp => settled_error ?_ hp
  unfold Tool.position at hx
  split at hx
  · cases hx
  · rw [← Except.error.inj hx]
    rfl

theorem owes_places (h : Opener e) (file : Path) (line column : UInt32) (what : String)
    {question : String → Position → Routine Client (Except ClientError (List Location))}
    (hq : ∀ uri p, Asks (question uri p)) :
    Owes (untouched e : Assertion (pact i)) (Tool.places file line column what question)
      (settled e) := by
  refine owes_position fun p => owes_asked h file what (fun doc => hq doc.uri p) fun out => ?_
  exact Owes.bind (owes_closed h fun e => looks_foundPlaces out.2 []) fun _ => owes_finished nofun

theorem owes_hover (h : Opener e) (file : Path) (line column : UInt32) :
    Owes (untouched e : Assertion (pact i)) (Tool.hover file line column) (settled e) :=
  owes_position fun _ => owes_asked h file _ (fun _ => asks_request (by decide))
    fun _ => owes_finished nofun

theorem owes_getDiagnostics (h : Opener e) (file : Path) (wait : Option UInt64) :
    Owes (untouched e : Assertion (pact i)) (Tool.getDiagnostics file wait) (settled e) := by
  refine owes_toolThen (owes_toolDocument h file) (fun doc => ?_)
    fun fault w hp => settled_error hp.1 hp.2
  refine Owes.bind (owes_held h ?_) fun found => ?_
  · cases wait with
    | some ms => exact asks_awaitDiagnostics doc.uri ms.toNat
    | none => exact asks_read _
  · exact Owes.bind (owes_toolClose h doc) fun _ => owes_finished nofun

theorem owes_listDocumentSymbols (h : Opener e) (file : Path) :
    Owes (untouched e : Assertion (pact i)) (Tool.listDocumentSymbols file) (settled e) :=
  owes_asked h file _ (fun _ => asks_request (by decide)) fun _ => owes_finished nofun

/-- A search needs no document. -/
theorem owes_searchSymbol (h : Opener e) (query : String) :
    Owes (untouched e : Assertion (pact i)) (Tool.searchSymbol query) fun _ => untouched e := by
  unfold Tool.searchSymbol
  dsimp only
  split
  · exact owes_done fun _ _ hp => hp
  · refine owes_toolThen (owes_toolClient h) (fun k => ?_) fun fault w hp => hp.2
    have hasks : Asks (Client.workspaceSymbol (trimText query)) := asks_request (by decide)
    have hsearch := hasks.owes (i := i) ((lasts_count k).firm e) h.toFree h.tool fun _ hp => hp
    exact Owes.bind hsearch fun _ => owes_done fun w _ hp => ⟨hp.1, trivial⟩

/-! ### tools that change files -/

theorem owes_applied {γ : Type} (h : Opener e) (what : String)
    (work : Routine Disk (Except EditError γ)) (make : γ → β) :
    Owes (closed e : Assertion (pact i)) ((Tool.onDisk work).bind fun result =>
      .done ((result.mapError (ToolError.notApplied what)).map make)) (settled e) := by
  refine Owes.bind (owes_closed h fun e => looks_onDisk work) fun result => ?_
  refine owes_finished fun fault hx => ?_
  cases result with
  | ok a => cases hx
  | error fault => rw [← Except.error.inj hx]; rfl

theorem owes_renameSymbol (h : Opener e) (file : Path) (line column : UInt32) (newName : String) :
    Owes (untouched e : Assertion (pact i)) (Tool.renameSymbol file line column newName)
      (settled e) := by
  unfold Tool.renameSymbol
  dsimp only
  split
  · exact owes_done fun w _ hp => settled_error rfl hp
  · refine owes_position fun p => owes_asked h file _ (fun doc => asks_rename _ _ _) fun out => ?_
    obtain ⟨doc, answer⟩ := out
    dsimp only
    split
    · exact owes_finished nofun
    · exact owes_applied h _ _ _

theorem owes_formatCode (h : Opener e) (file : Path) :
    Owes (untouched e : Assertion (pact i)) (Tool.formatCode file) (settled e) := by
  refine owes_asked h file _ (fun doc => asks_format doc.uri) fun out => ?_
  obtain ⟨doc, answer⟩ := out
  dsimp only
  split
  · exact owes_finished nofun
  · exact owes_applied h _ _ _

theorem owes_organizeImports (h : Opener e) (file : Path) :
    Owes (untouched e : Assertion (pact i)) (Tool.organizeImports file) (settled e) := by
  refine owes_asked h file _ (fun doc => asks_request (by decide)) fun out => ?_
  obtain ⟨doc, answer⟩ := out
  dsimp only
  split
  · exact owes_finished nofun
  · split
    · exact owes_applied h _ _ _
    · exact owes_finished fun fault hx => by rw [← Except.error.inj hx]; rfl
    · exact owes_finished nofun

/-! ### all of them -/

def served (e : Entry) (request : ToolRequest) (result : Except ToolError Json) :
    Assertion (pact i) :=
  bif request.hasOpened result then closed e else untouched e

theorem owes_mapJson {r : ToolRoutine α} {toJson : α → Json} {request : ToolRequest}
    (h : Owes (untouched e : Assertion (pact i)) r (settled e)) (hopens : request.opens = true) :
    Owes (untouched e : Assertion (pact i)) (Tool.mapJson r toJson) (served e request) := by
  refine Owes.bind h fun result => owes_done fun w _ hp => ?_
  unfold served ToolRequest.hasOpened
  rw [hopens]
  cases result with
  | ok a => exact hp
  | error fault =>
    unfold settled at hp
    dsimp only [Except.map] at hp ⊢
    cases hf : fault.isEarly with
    | true => rw [hf] at hp; exact hp
    | false => rw [hf] at hp; exact hp

theorem owes_dispatch (h : Opener e) (request : ToolRequest) :
    Owes (untouched e : Assertion (pact i)) (Tool.dispatch request) (served e request) := by
  cases request with
  | gotoDefinition file line column =>
    exact owes_mapJson (owes_places h file line column _ fun _ _ => asks_request (by decide)) rfl
  | findReferences file line column includeDeclaration =>
    exact owes_mapJson (owes_places h file line column _ fun _ _ => asks_request (by decide)) rfl
  | findImplementers file line column =>
    exact owes_mapJson (owes_places h file line column _ fun _ _ => asks_request (by decide)) rfl
  | hover file line column => exact owes_mapJson (owes_hover h file line column) rfl
  | getDiagnostics file wait => exact owes_mapJson (owes_getDiagnostics h file wait) rfl
  | listDocumentSymbols file => exact owes_mapJson (owes_listDocumentSymbols h file) rfl
  | searchSymbol query =>
    refine Owes.bind (owes_searchSymbol h query) fun result => owes_done fun w _ hp => ?_
    cases result with
    | ok a => exact hp
    | error fault => exact hp
  | renameSymbol file line column newName =>
    exact owes_mapJson (owes_renameSymbol h file line column newName) rfl
  | formatCode file => exact owes_mapJson (owes_formatCode h file) rfl
  | organizeImports file => exact owes_mapJson (owes_organizeImports h file) rfl

end Office

end CodeBridge
