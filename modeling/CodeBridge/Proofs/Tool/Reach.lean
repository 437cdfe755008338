import CodeBridge.Proofs.Concurrency.Keeps
import CodeBridge.Proofs.Edit.Reach
import CodeBridge.Proofs.Tool.Steps
import CodeBridge.Tool.Dispatch

/-!
# What a tool call does to files

One call runs while anything else may happen that leaves the files alone: the server answers, or
answers what makes no sense, or is silent until a limit is over, or hangs up.

* `Aside`           what may happen between two moves of the call;
* `run`             the call amid such things, move by move;
* `Spares`          every move of a routine leaves files alone; so it is with the tools that look
                    things up (`spares_lookup`), and with the others up to the server's answer
                    (`spares_ask`);
* `Confined`        a routine ends with the disk as it was, or with a result that fits the disk;
* `dispatch_reach`  what a tool has done to the disk: nothing when it looks things up or fails, and
                    otherwise nothing but to the files that it reports.
-/

namespace CodeBridge.Tool

open Routine

/-! ## runs -/

/-- Something else that happens: the disk and the root of the workspace stay as they are. -/
structure Aside where
  change : Host → Host
  disk : ∀ h, (change h).disk = h.disk
  root : ∀ h, (change h).root = h.root

inductive Moment where
  /-- a move of the call, `elapsed` milliseconds after it came where it is -/
  | move (elapsed : Nat)
  | aside (other : Aside)

variable {α β : Type}

/-- What a host and what is left of a call come to. -/
def run : List Moment → Host × Routine Host α → Host × Routine Host α
  | [], s => s
  | .move elapsed :: moments, (h, r) => run moments (r.poll elapsed h)
  | .aside other :: moments, (h, r) => run moments (other.change h, r)

/-! ## what a call may rely on -/

/-- Others leave files alone; a move of the call itself does to the disk what it may. -/
def terms (may : Disk → Disk → Prop) : Terms Host Unit where
  rely w w' := w'.1.disk = w.1.disk ∧ w'.1.root = w.1.root
  guar w w' := may w.1.disk w'.1.disk
  fires _ _ := True
  refl _ := ⟨rfl, rfl⟩
  trans _ _ _ h h' := ⟨h'.1.trans h.1, h'.2.trans h.2⟩

section
variable {may : Disk → Disk → Prop} (hrefl : ∀ d, may d d)
include hrefl

theorem Keeps.run {post : α → Host × Unit → Prop} (htrans : ∀ a b c, may a b → may b c → may a c)
    (moments : List Moment) (s : Host × Routine Host α)
    (h : Keeps (terms may) dropAny post s.2 (s.1, ())) :
    Keeps (terms may) dropAny post (Tool.run moments s).2 ((Tool.run moments s).1, ()) ∧
      may s.1.disk (Tool.run moments s).1.disk := by
  induction moments generalizing s with
  | nil => exact ⟨h, hrefl s.1.disk⟩
  | cons moment moments ih =>
    obtain ⟨host, r⟩ := s
    cases moment with
    | move elapsed =>
      have hmove : Keeps (terms may) dropAny post (r.poll elapsed host).2
          ((r.poll elapsed host).1, ()) ∧ may host.disk (r.poll elapsed host).1.disk := by
        cases he : r.expired elapsed host with
        | true =>
          have hfires : (terms may).fires (host, ()) () := trivial
          obtain ⟨hsame, hk⟩ := h.expired elapsed he hfires
          rw [hsame]
          exact ⟨hk, hrefl host.disk⟩
        | false =>
          obtain ⟨_, ⟨hsame, -⟩ | hguar, hk⟩ := h.poll elapsed he
          · exact ⟨hk, hsame ▸ hrefl host.disk⟩
          · exact ⟨hk, hguar⟩
      obtain ⟨hk, hmay⟩ := ih (r.poll elapsed host) hmove.1
      exact ⟨hk, htrans _ _ _ hmove.2 hmay⟩
    | aside other =>
      have hother : (terms may).rely (host, ()) (other.change host, ()) :=
        ⟨other.disk host, other.root host⟩
      obtain ⟨hk, hmay⟩ := ih (other.change host, r) (h.rely hother)
      rw [other.disk host] at hmay
      exact ⟨hk, hmay⟩

end

/-! ## moves that leave files alone -/

/-- The disk and the root are those of `h₀`. -/
structure Still (h₀ h : Host) : Prop where
  disk : h.disk = h₀.disk
  root : h.root = h₀.root

/-- While the files stay as they are in `h₀`, every move leaves them so, and every result is as
promised. -/
inductive Spares (h₀ : Host) (post : α → Prop) : Routine Host α → Prop
  | done {a : α} : post a → Spares h₀ post (done a)
  | step {update : Host → Host} {next : Host → Routine Host α} :
      (∀ h, Still h₀ h → Still h₀ (update h)) → (∀ h, Still h₀ h → Spares h₀ post (next h)) →
      Spares h₀ post (step update next)
  | wait {ready : Host → Bool} {limit : Option Nat} {abandon : Host → Host}
      {next : Bool → Nat → Routine Host α} :
      (∀ b t, Spares h₀ post (next b t)) → Spares h₀ post (wait ready limit abandon next)
  | pause {abandon : Host → Host} {next : Unit → Routine Host α} :
      Spares h₀ post (next ()) → Spares h₀ post (pause abandon next)

abbrev SparesAll (h₀ : Host) : Routine Host α → Prop := Spares h₀ fun _ => True

section
variable {h₀ : Host} {post : α → Prop} {post' : β → Prop}

theorem Spares.bind {r : Routine Host α} {f : α → Routine Host β} (h : Spares h₀ post r)
    (hf : ∀ a, post a → Spares h₀ post' (f a)) : Spares h₀ post' (r.bind f) := by
  induction h with
  | done ha => exact hf _ ha
  | step hupdate _ ih => exact .step hupdate ih
  | wait _ ih => exact .wait ih
  | pause _ ih => exact .pause ih

theorem Spares.mono {post'' : α → Prop} {r : Routine Host α} (h : Spares h₀ post r)
    (hp : ∀ a, post a → post'' a) : Spares h₀ post'' r := by
  induction h with
  | done ha => exact .done (hp _ ha)
  | step hupdate _ ih => exact .step hupdate ih
  | wait _ ih => exact .wait ih
  | pause _ ih => exact .pause ih

theorem Spares.ensure {cleanup : Host → Host} {r : Routine Host α} (h : Spares h₀ post r)
    (hc : ∀ h, Still h₀ h → Still h₀ (cleanup h)) : Spares h₀ post (r.ensure cleanup) := by
  have hundo : Spares h₀ post (r.undoWith cleanup) := by
    induction h with
    | done ha => exact .done ha
    | step hupdate _ ih => exact .step hupdate ih
    | wait _ ih => exact .wait ih
    | pause _ ih => exact .pause ih
  exact hundo.bind fun a ha => .step hc fun _ _ => .done ha

theorem Spares.ite {c : Prop} [Decidable c] {r r' : Routine Host α} (h : Spares h₀ post r)
    (h' : Spares h₀ post r') : Spares h₀ post (if c then r else r') := by
  by_cases hc : c
  · rw [if_pos hc]
    exact h
  · rw [if_neg hc]
    exact h'

theorem spares_read (f : Host → α) (hf : ∀ h, Still h₀ h → post (f h)) :
    Spares h₀ post (read f) := .step (fun _ hs => hs) fun h hs => .done (hf h hs)

theorem sparesAll_read (f : Host → α) : SparesAll h₀ (read f) :=
  spares_read f fun _ _ => trivial

theorem spares_onClient (k : Nat) (r : Routine Client α) : SparesAll h₀ (Host.onClient k r) := by
  induction r with
  | done a => exact .done trivial
  | step update next ih => exact .step (fun h hs => ⟨hs.disk, hs.root⟩) fun _ _ => ih _
  | wait ready limit abandon next ih => exact .wait ih
  | pause abandon next ih => exact .pause (ih ())

theorem Spares.reading {body : Routine Host α} (h : Spares h₀ post body) :
    Spares h₀ post (Host.reading body) := by
  have hjoin : SparesAll h₀ (act fun s : Host =>
      ((s.slotLock.join true).1, s.setSlotLock (s.slotLock.join true).2)) :=
    .step (fun s hs => ⟨hs.disk, hs.root⟩) fun _ _ => .done trivial
  have hturn (ticket : Nat) : SparesAll h₀ (until_ fun s : Host => s.slotLock.holds ticket) :=
    .wait fun _ _ => .done trivial
  exact hjoin.bind fun ticket _ =>
    Spares.ensure ((hturn ticket).bind fun _ _ => h) fun s hs => ⟨hs.disk, hs.root⟩

theorem Spares.andThen {P : α → Prop} {Q : Except ToolError β → Prop} {r : ToolRoutine α}
    {next : α → ToolRoutine β} (h : Spares h₀ (fun result => ∀ a, result = .ok a → P a) r)
    (hnext : ∀ a, P a → Spares h₀ Q (next a)) (herror : ∀ e, Q (.error e)) :
    Spares h₀ Q (Tool.andThen r next) := by
  refine Spares.bind h fun result hresult => ?_
  cases result with
  | ok a => exact hnext a (hresult a rfl)
  | error e => exact .done (herror e)

theorem Spares.andThenAll {Q : Except ToolError β → Prop} {r : ToolRoutine α}
    {next : α → ToolRoutine β} (h : SparesAll h₀ r) (hnext : ∀ a, Spares h₀ Q (next a))
    (herror : ∀ e, Q (.error e)) : Spares h₀ Q (Tool.andThen r next) :=
  Spares.andThen (P := fun _ => True) (h.mono fun _ _ _ _ => trivial) (fun a _ => hnext a) herror

theorem sparesAll_ofExcept (e : Except ToolError α) : SparesAll h₀ (ofExcept e) := .done trivial

/-! ## documents -/

theorem spares_readText (path : Path) : SparesAll h₀ (readText path) :=
  Spares.bind (sparesAll_read _) fun _ _ => .pause (.done trivial)

theorem spares_client : SparesAll h₀ client :=
  Spares.bind (Spares.reading (sparesAll_read _)) fun _ _ => .done trivial

theorem spares_holdOpen (path : Path) (text : String) (k : Nat) :
    Spares h₀ (fun result => ∀ doc, result = .ok doc → doc.path = path)
      (holdOpen path text k) := by
  refine Spares.bind (spares_onClient k _) fun held _ => .done fun doc h => ?_
  cases held with
  | error fault => cases h
  | ok _ => rw [← Except.ok.inj h]

theorem resolve_of_still {h : Host} (hs : Still h₀ h) (file : Path) :
    resolve h file = resolve h₀ file := by
  unfold resolve
  rw [hs.disk, hs.root]

/-- The document that is opened is the file that was named. -/
theorem spares_openDocument (file : Path) :
    Spares h₀ (fun result => ∀ doc, result = .ok doc → resolve h₀ file = .ok doc.path)
      (openDocument file) := by
  have hread : Spares h₀ (Still h₀) (read id) := spares_read id fun _ hs => hs
  refine Spares.bind hread fun h hs => ?_
  refine Spares.andThen (P := fun path => resolve h₀ file = .ok path) (.done fun path e => ?_)
    (fun path hpath => ?_) fun _ => nofun
  · rw [← resolve_of_still hs, e]
  · refine Spares.bind (spares_readText path) fun text _ => ?_
    refine Spares.andThenAll (sparesAll_ofExcept _) (fun text => ?_) fun _ => nofun
    refine Spares.andThenAll spares_client (fun k => ?_) fun _ => nofun
    exact (spares_holdOpen path text k).mono fun result h doc e => by rw [h doc e, hpath]

theorem spares_close (doc : OpenDocument) : SparesAll h₀ doc.close :=
  Spares.bind (spares_onClient doc.client _) fun _ _ => .done trivial

/-- Up to the server's answer nothing is done to files, and what was asked about is the file that
was named. -/
theorem spares_ask (file : Path) (what : String)
    (question : OpenDocument → Routine Client (Except ClientError α)) :
    Spares h₀ (fun result => ∀ out, result = .ok out → resolve h₀ file = .ok out.1.path)
      (ask file what question) := by
  refine Spares.andThen (spares_openDocument file) (fun doc hdoc => ?_) fun _ => nofun
  refine Spares.bind (spares_onClient doc.client _) fun answer _ => ?_
  refine Spares.bind (spares_close doc) fun _ _ => .done fun out h => ?_
  cases answer with
  | error fault => cases h
  | ok a => rw [← Except.ok.inj h, hdoc]

theorem spares_asked (file : Path) (what : String)
    (question : OpenDocument → Routine Client (Except ClientError α))
    (next : OpenDocument × α → ToolRoutine β) (hnext : ∀ out, SparesAll h₀ (next out)) :
    SparesAll h₀ (Tool.andThen (ask file what question) next) :=
  Spares.andThenAll ((spares_ask file what question).mono fun _ _ => trivial) hnext
    fun _ => trivial

/-! ## tools that look things up -/

theorem spares_foundPlaces (locations : List Location) (previews : Previews) :
    SparesAll h₀ (foundPlaces locations previews) := by
  induction locations generalizing previews with
  | nil => exact .done trivial
  | cons l ls ih =>
    unfold foundPlaces
    cases pathOfUri l.uri with
    | error fault => exact ih previews
    | ok path =>
      dsimp only
      cases previews.get? path with
      | some lines => exact (ih previews).bind fun _ _ => .done trivial
      | none =>
        exact Spares.bind (spares_readText path) fun text _ =>
          (ih _).bind fun _ _ => .done trivial

theorem spares_places (file : Path) (line column : UInt32) (what : String)
    (question : String → Position → Routine Client (Except ClientError (List Location))) :
    SparesAll h₀ (places file line column what question) :=
  Spares.andThenAll (sparesAll_ofExcept _)
    (fun _ => spares_asked file what _ _ fun (_, locations) =>
      (spares_foundPlaces locations []).bind fun _ _ => .done trivial)
    fun _ => trivial

theorem spares_hover (file : Path) (line column : UInt32) :
    SparesAll h₀ (hover file line column) :=
  Spares.andThenAll (sparesAll_ofExcept _)
    (fun _ => spares_asked file _ _ _ fun _ => .done trivial) fun _ => trivial

theorem spares_getDiagnostics (file : Path) (wait : Option UInt64) :
    SparesAll h₀ (getDiagnostics file wait) :=
  Spares.andThenAll ((spares_openDocument file).mono fun _ _ => trivial)
    (fun doc => Spares.bind (spares_onClient doc.client _) fun _ _ =>
      (spares_close doc).bind fun _ _ => .done trivial)
    fun _ => trivial

theorem spares_listDocumentSymbols (file : Path) : SparesAll h₀ (listDocumentSymbols file) :=
  spares_asked file _ _ _ fun _ => .done trivial

theorem spares_searchSymbol (query : String) : SparesAll h₀ (searchSymbol query) := by
  unfold searchSymbol
  refine Spares.ite (.done trivial) ?_
  exact Spares.andThenAll spares_client
    (fun k => Spares.bind (spares_onClient k _) fun _ _ => .done trivial) fun _ => trivial

theorem spares_mapJson {r : ToolRoutine α} (h : SparesAll h₀ r) (toJson : α → Json) :
    SparesAll h₀ (mapJson r toJson) :=
  Spares.bind h fun _ _ => .done trivial

end

/-! ## tools that change files -/

/-- A tool that has reported files has changed no others. -/
def Reports (h₀ : Host) (changed : Changed) (d : Disk) : Prop :=
  ∃ files : List (List Name), changed.files = files.map .ofNames ∧
    SameOutside (files.map Path.real) h₀.disk d

/-- The same, and at most one file has been reported, the one that was named. -/
def ReportsOnly (h₀ : Host) (file : Path) (changed : Changed) (d : Disk) : Prop :=
  ∃ files : List (List Name), changed.files = files.map .ofNames ∧
    SameOutside (files.map Path.real) h₀.disk d ∧
    (files = [] ∨ ∃ names, files = [names] ∧ resolve h₀ file = .ok (.ofNames names))

/-- How a tool may end: with the disk as it was, or with a result that fits the disk. -/
def Ends (h₀ : Host) (post : α → Disk → Prop) : Except ToolError α → Host × Unit → Prop
  | .error _, w => w.1.disk = h₀.disk
  | .ok a, w => post a w.1.disk

abbrev anyMove : Terms Host Unit := terms fun _ _ => True

structure Confined (h₀ : Host) (post : α → Disk → Prop) (r : ToolRoutine α) (w : Host × Unit) :
    Prop where
  keeps : Keeps anyMove dropAny (Ends h₀ post) r w

section
variable {h₀ : Host} {w : Host × Unit} {post : β → Disk → Prop}

theorem keeps_of_spares {may : Disk → Disk → Prop} (hrefl : ∀ d, may d d) {post : α → Prop}
    {r : Routine Host α} (h : Spares h₀ post r) (hw : Still h₀ w.1) :
    Keeps (terms may) dropAny (fun a w => Still h₀ w.1 ∧ post a) r w := by
  have still {h h' : Host} (hs : Still h₀ h) (hrely : h'.disk = h.disk ∧ h'.root = h.root) :
      Still h₀ h' := ⟨hrely.1.trans hs.disk, hrely.2.trans hs.root⟩
  induction h generalizing w with
  | done ha => exact fun w' hrely => ⟨still hw hrely, ha⟩
  | @step update next hupdate _ ih =>
    intro s g hrely
    have hs : Still h₀ s := still hw hrely
    refine ⟨(), ?_, ih s hs (hupdate s hs)⟩
    show may s.disk (update s).disk
    rw [(hupdate s hs).disk, hs.disk]
    exact hrefl h₀.disk
  | wait _ ih =>
    intro s g hrely
    have hs : Still h₀ s := still hw hrely
    exact ⟨fun t _ => ih true t hs, fun t _ _ _ _ => ih false t hs, (), trivial⟩
  | pause _ ih =>
    intro s g hrely
    have hs : Still h₀ s := still hw hrely
    exact ⟨ih hs, (), trivial⟩

/-- The disk is worked on as if nobody else were about. -/
theorem keeps_files {work : Routine Disk α} {out : α × Disk}
    (h : work.through w.1.disk = some out) :
    Keeps anyMove dropAny (fun result w => (result, w.1.disk) = out) (onFiles work) w := by
  induction work generalizing w with
  | done a =>
    intro w' hrely
    rw [hrely.1]
    exact Option.some.inj h
  | step update next ih =>
    intro s g hrely
    refine ⟨(), trivial, ih s.disk ?_⟩
    show (next s.disk).through (update s.disk) = some out
    rw [show s.disk = w.1.disk from hrely.1]
    exact h
  | wait ready limit abandon next ih => cases h
  | pause abandon next ih => cases h

theorem keeps_onDisk {work : Routine Disk α} {out : α × Disk} (hw : Still h₀ w.1)
    (h : work.through h₀.disk = some out) :
    Keeps anyMove dropAny (fun result w => (result, w.1.disk) = out) (onDisk work) w := by
  rw [← hw.disk] at h
  refine (keeps_files h).zoom_handedOver.bind fun result w hresult s g hrely =>
    ⟨fun w' hrely' => ?_, (), trivial⟩
  show (result, w'.1.disk) = out
  rw [hrely'.1, hrely.1, hresult]

theorem keeps_done {result : Except ToolError β} (h : Ends h₀ post result w) :
    Keeps anyMove dropAny (Ends h₀ post) (.done result) w := by
  intro w' hrely
  cases result with
  | error e => exact hrely.1.trans h
  | ok a =>
    show post a w'.1.disk
    rw [hrely.1]
    exact h

theorem confined_error (hs : Still h₀ w.1) (e : ToolError) :
    Confined h₀ post (.done (.error e)) w := ⟨keeps_done hs.disk⟩

theorem confined_unchanged {a : β} (hs : Still h₀ w.1) (h : post a h₀.disk) :
    Confined h₀ post (.done (.ok a)) w := by
  refine ⟨keeps_done ?_⟩
  show post a w.1.disk
  rw [hs.disk]
  exact h

theorem Confined.ite {c : Prop} [Decidable c] {r r' : ToolRoutine β} (h : Confined h₀ post r w)
    (h' : Confined h₀ post r' w) : Confined h₀ post (if c then r else r') w := by
  by_cases hc : c
  · rw [if_pos hc]
    exact h
  · rw [if_neg hc]
    exact h'

/-- Work on the disk whose result, or whose failure, is the end of the tool. -/
theorem confined_work {work : Routine Disk (Except EditError α)} {what : String} {report : α → β}
    {out : Except EditError α × Disk} (hw : Still h₀ w.1)
    (h : match out with
      | (.error _, d) => d = h₀.disk
      | (.ok a, d) => post (report a) d) (hout : work.through h₀.disk = some out) :
    Confined h₀ post ((onDisk work).bind fun result =>
      .done ((result.mapError (ToolError.notApplied what)).map report)) w := by
  refine ⟨(keeps_onDisk hw hout).bind fun result w hresult => keeps_done ?_⟩
  rw [← hresult] at h
  cases result with
  | error fault => exact h
  | ok a => exact h

/-- A tool that asks about a file and then goes on from the answer. -/
theorem confined_asked {file : Path} {what : String}
    {question : OpenDocument → Routine Client (Except ClientError α)}
    {next : OpenDocument × α → ToolRoutine β} (hw : Still h₀ w.1)
    (hnext : ∀ out w, Still h₀ w.1 → resolve h₀ file = .ok out.1.path →
      Confined h₀ post (next out) w) :
    Confined h₀ post (Tool.andThen (ask file what question) next) w := by
  refine ⟨(keeps_of_spares (fun _ => trivial) (spares_ask file what question) hw).bind
    fun result w hresult => ?_⟩
  obtain ⟨hs, hpath⟩ := hresult
  cases result with
  | error e => exact keeps_done hs.disk
  | ok out => exact (hnext out w hs (hpath out rfl)).keeps

theorem confined_mapJson {post' : Json → Disk → Prop} {r : ToolRoutine β} {toJson : β → Json}
    (h : Confined h₀ post r w) (himp : ∀ a d, post a d → post' (toJson a) d) :
    Confined h₀ post' (mapJson r toJson) w := by
  refine ⟨h.keeps.bind fun result w hresult => keeps_done ?_⟩
  cases result with
  | error e => exact hresult
  | ok a => exact himp a w.1.disk hresult

theorem reportsOnly_nothing (file : Path) : ReportsOnly h₀ file {} h₀.disk :=
  ⟨[], rfl, .refl [] h₀.disk, .inl rfl⟩

theorem confined_formatCode (file : Path) (hw : Still h₀ w.1) :
    Confined h₀ (ReportsOnly h₀ file) (formatCode file) w := by
  refine confined_asked hw fun (doc, edits) w hs hpath => ?_
  refine Confined.ite (confined_unchanged hs (reportsOnly_nothing file))
    (confined_work hs ?_ (through_changeFile doc.path edits h₀.disk))
  obtain ⟨names, hnames, hplain⟩ := exists_names_of_normalizePath (mapError_eq_ok hpath)
  have hreach := applyTextEdits_reach (d := h₀.disk) hplain edits
  dsimp only at hpath hnames ⊢
  rw [hnames] at hpath ⊢
  split at hreach
  next hwork => rw [hwork]; exact hreach
  next hwork =>
    rw [hwork]
    exact ⟨[names], rfl, hreach, .inr ⟨names, rfl, hpath⟩⟩

theorem confined_organizeImports (file : Path) (hw : Still h₀ w.1) :
    Confined h₀ (ReportsOnly h₀ file) (organizeImports file) w := by
  refine confined_asked hw fun (doc, actions) w hs hpath => ?_
  cases actions with
  | nil => exact confined_unchanged hs (reportsOnly_nothing file)
  | cons action actions =>
    dsimp only
    cases action.edit with
    | some edit =>
      refine confined_work hs ?_ (through_changeTarget doc.path edit h₀.disk)
      obtain ⟨names, hnames, hplain⟩ := exists_names_of_normalizePath (mapError_eq_ok hpath)
      have hreach := applyToTarget_reach (d := h₀.disk) hplain edit
      dsimp only at hpath hnames ⊢
      rw [hnames] at hpath ⊢
      split at hreach
      next hwork => rw [hwork]; exact hreach
      next changed d hwork =>
        rw [hwork]
        cases changed with
        | true => exact ⟨[names], rfl, hreach, .inr ⟨names, rfl, hpath⟩⟩
        | false => exact ⟨[], rfl, hreach, .inl rfl⟩
    | none =>
      cases action.command with
      | some command => exact confined_error hs _
      | none => exact confined_unchanged hs (reportsOnly_nothing file)

theorem confined_renameSymbol (file : Path) (line column : UInt32) (newName : String)
    (hw : Still h₀ w.1) :
    Confined h₀ (Reports h₀) (renameSymbol file line column newName) w := by
  unfold renameSymbol position
  refine Confined.ite (confined_error hw _) ?_
  cases toProtocol? line column with
  | none => exact confined_error hw _
  | some p =>
    refine confined_asked hw fun (doc, outcome) w hs _ => ?_
    refine Confined.ite (confined_unchanged hs ⟨[], rfl, .refl [] h₀.disk⟩)
      (confined_work hs ?_ (through_changeFiles outcome.edit h₀.disk))
    have hreach := applyWorkspaceEdit_reach h₀.disk outcome.edit
    split at hreach
    next hwork => rw [hwork]; exact hreach
    next paths d hwork => rw [hwork]; exact hreach

end

/-! ## every tool -/

/-- The tools that may change files; the others look things up. -/
def changesFiles : ToolRequest → Bool
  | .renameSymbol .. | .formatCode _ | .organizeImports _ => true
  | _ => false

/-- What a tool that ends with a value has done to the disk. -/
def Reach (h₀ : Host) : ToolRequest → Json → Disk → Prop
  | .renameSymbol .., v, d => ∃ changed : Changed, v = changed.toJson ∧ Reports h₀ changed d
  | .formatCode file, v, d | .organizeImports file, v, d =>
    ∃ changed : Changed, v = changed.toJson ∧ ReportsOnly h₀ file changed d
  | _, _, d => d = h₀.disk

theorem spares_lookup {h₀ : Host} (request : ToolRequest) (h : changesFiles request = false) :
    SparesAll h₀ (dispatch request) := by
  cases request with
  | gotoDefinition file line column => exact spares_mapJson (spares_places file line column _ _) _
  | findReferences file line column _ => exact spares_mapJson (spares_places file line column _ _) _
  | findImplementers file line column => exact spares_mapJson (spares_places file line column _ _) _
  | hover file line column => exact spares_mapJson (spares_hover file line column) _
  | getDiagnostics file wait => exact spares_mapJson (spares_getDiagnostics file wait) _
  | listDocumentSymbols file => exact spares_mapJson (spares_listDocumentSymbols file) _
  | searchSymbol query => exact spares_mapJson (spares_searchSymbol query) _
  | renameSymbol file line column newName => cases h
  | formatCode file => cases h
  | organizeImports file => cases h

theorem reach_of_lookup {h₀ : Host} {request : ToolRequest} (h : changesFiles request = false)
    (v : Json) : Reach h₀ request v h₀.disk := by
  cases request with
  | renameSymbol file line column newName => cases h
  | formatCode file => cases h
  | organizeImports file => cases h
  | _ => rfl

theorem confined_dispatch {h₀ : Host} {w : Host × Unit} (request : ToolRequest)
    (hw : Still h₀ w.1) : Confined h₀ (Reach h₀ request) (dispatch request) w := by
  cases hlookup : changesFiles request with
  | false =>
    have hspares : Keeps anyMove dropAny _ (dispatch request) w :=
      keeps_of_spares (fun _ => trivial) (spares_lookup request hlookup) hw
    refine ⟨hspares.mono fun result w hresult => ?_⟩
    cases result with
    | error e => exact hresult.1.disk
    | ok v =>
      show Reach h₀ request v w.1.disk
      rw [hresult.1.disk]
      exact reach_of_lookup hlookup v
  | true =>
    cases request with
    | renameSymbol file line column newName =>
      exact confined_mapJson (confined_renameSymbol file line column newName hw)
        fun changed _ h => ⟨changed, rfl, h⟩
    | formatCode file =>
      exact confined_mapJson (confined_formatCode file hw) fun changed _ h => ⟨changed, rfl, h⟩
    | organizeImports file =>
      exact confined_mapJson (confined_organizeImports file hw)
        fun changed _ h => ⟨changed, rfl, h⟩
    | _ => cases hlookup

/-- **Along any run of a tool, one that looks things up leaves the disk as it is; a tool that fails
has left it so; and one that has changed files has changed none but those that it reports**, which
is at most the file that was named unless the tool renames. -/
theorem dispatch_reach (request : ToolRequest) (h₀ : Host) (moments : List Moment) :
    let s := run moments (h₀, dispatch request)
    (changesFiles request = true ∨ s.1.disk = h₀.disk) ∧
      match s.2 with
      | .done (.error _) => s.1.disk = h₀.disk
      | .done (.ok v) => Reach h₀ request v s.1.disk
      | _ => True := by
  intro s
  have hstill : Still h₀ (h₀, ()).1 := ⟨rfl, rfl⟩
  constructor
  · cases hlookup : changesFiles request with
    | true => exact .inl rfl
    | false =>
      have hkeeps := keeps_of_spares Eq.refl (spares_lookup request hlookup) hstill
      have hsame := (Keeps.run Eq.refl (fun _ _ _ => Eq.trans) moments (h₀, dispatch request)
        hkeeps).2
      exact .inr hsame.symm
  · have hkeeps : Keeps anyMove dropAny (Ends h₀ (Reach h₀ request)) s.2 (s.1, ()) :=
      (Keeps.run (fun _ => trivial) (fun _ _ _ _ _ => trivial) moments (h₀, dispatch request)
        (confined_dispatch request hstill).keeps).1
    cases hr : s.2 with
    | done result =>
      rw [hr] at hkeeps
      have hend : Ends h₀ (Reach h₀ request) result (s.1, ()) := hkeeps (s.1, ()) ⟨rfl, rfl⟩
      cases result with
      | error e => exact hend
      | ok v => exact hend
    | step update next => trivial
    | wait ready limit abandon next => trivial
    | pause abandon next => trivial

end CodeBridge.Tool
