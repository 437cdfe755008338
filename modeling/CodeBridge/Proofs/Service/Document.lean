import CodeBridge.Proofs.Service.Exchange

/-!
# The document of a call

A call reads the file and holds it open on the server for as long as it asks about it.  While it
holds the document the server has the text that the call has read: whoever opened the document had
read the same.
-/

namespace CodeBridge

namespace Meeting
variable {m : Meeting} {x : Side}

/-! ## taking hold and letting go -/

theorem holders_docsOf (c : Client) (uri : String) (n : Nat) (h : c.openDocs = docsOf uri n) :
    c.holders uri = if n = 0 then none else some n := by
  unfold Client.holders
  rw [h]
  cases n with
  | zero => rfl
  | succ n => simp [docsOf]

theorem setHolders_docsOf (c : Client) (uri : String) (n k : Nat)
    (h : c.openDocs = docsOf uri (n + 1)) :
    c.setHolders uri (k + 1) = { c with openDocs := docsOf uri (k + 1) } := by
  unfold Client.setHolders
  rw [h]
  simp [docsOf]

theorem removeDocument_docsOf (c : Client) (uri : String) (n : Nat)
    (h : c.openDocs = docsOf uri n) : c.removeDocument uri = { c with openDocs := [] } := by
  unfold Client.removeDocument
  rw [h]
  cases n with
  | zero => rfl
  | succ n => simp [docsOf]

theorem addDocument_docsOf (c : Client) (uri : String) (h : c.openDocs = docsOf uri 0) :
    c.addDocument uri = { c with openDocs := docsOf uri 1 } := by
  unfold Client.addDocument
  rw [h]
  rfl

theorem openDocs_eq {v : View} {held beside : Bool} (hs : m.Sound v)
    (hx : v.notes.holding x = held) (ho : v.notes.holding x.other = beside) :
    v.client.openDocs = docsOf m.site.uri (held.toNat + beside.toNat) := by
  rw [hs.docs, v.notes.holders_eq x, hx, ho]

/-- Who else holds the document has read the same, and the server was told so. -/
theorem told_of_other {v : View} {text : String} (hs : m.Sound v) (hx : x ∉ v.notes.written)
    (hk : m.Known x v.notes.written (.ok text)) (ho : v.notes.holding x.other = true) :
    m.told v = some text := by
  have hother := hs.unwritten x.other ho
  rcases hs.files.reached.of_not_mem hx with hw | hw
  · obtain ⟨text', ht, hb⟩ := hs.told x.other ho hw
    rcases hk with hk | ⟨hw', -⟩
    · rw [← hk] at hb
      exact Except.ok.inj hb ▸ ht
    · rw [hw] at hw'
      cases hw'
  · rw [hw] at hother
    exact absurd List.mem_cons_self hother

section
variable {text : String} {made : Nat}

/-- With the lock a call knows who holds the document. -/
theorem owes_look {read : Except IoError String} {held : Bool} (ticket : Nat) :
    Owes ((Assertion.phase read made held : Assertion m x).and (.locks ticket))
      (Host.onClient m.client (.read id)) fun c => .any fun beside =>
        (Assertion.fact (c.lifecycle = .initialized ∧
            c.openDocs = docsOf m.site.uri (held.toNat + beside.toNat))).and
          ((Assertion.phase read made held).and (.locksBeside ticket beside)) := by
  exact owes_client_read fun v hs hp => ⟨v.notes.holding x.other,
    ⟨hs.lifecycle, openDocs_eq hs hp.1.holding rfl⟩, hp.1, hp.2, rfl⟩

theorem owes_openFirst (ticket : Nat) (languageId : String) :
    Owes ((Assertion.phase (.ok text) made false : Assertion m x).and (.locksBeside ticket false))
      (Host.onClient m.client (Client.notify "textDocument/didOpen"
        (some (Params.didOpen m.site.uri languageId 1 text)))) fun r =>
        (Assertion.fact (r = .ok ())).and ((Assertion.phase (.ok text) made false).and
          (.locksTold ticket false text)) := by
  refine owes_notify _ _ fun v hs ⟨hp, hl, ho⟩ => ⟨?_, { hp with told := nofun }, ⟨hl, ho⟩, ?_⟩
  · refine move_didOpen hs hl (fun y => ?_) languageId text 1
    rcases x.eq_or_eq_other y with rfl | rfl
    · exact hp.holding
    · exact ho
  · exact told_didOpen v languageId text 1

theorem owes_hold (ticket : Nat) (beside : Bool) {f : Client → Client}
    (hf : ∀ c, c.openDocs = docsOf m.site.uri (0 + beside.toNat) →
      f c = { c with openDocs := docsOf m.site.uri (1 + beside.toNat) }) :
    Owes ((Assertion.phase (.ok text) made false : Assertion m x).and
        (.locksTold ticket beside text))
      (Host.onClient m.client (.change f)) fun _ =>
        (Assertion.phase (.ok text) made true).and (.ticket ticket) := by
  refine owes_client_act (f := fun c => ((), f c)) fun v hs ⟨hp, ⟨hl, ho⟩, ht⟩ => ?_
  dsimp only
  rw [hf v.client (openDocs_eq hs hp.holding ho)]
  exact ⟨_, move_hold hs hl hp.unwritten hp.known ht _ (by rw [ho]),
    { hp with holding := Side.set_self .., told := fun _ => ⟨text, rfl, ht⟩ }, hl.1⟩

theorem owes_drop {read : Except IoError String} (ticket : Nat) (beside : Bool)
    {f : Client → Client}
    (hf : ∀ c, c.openDocs = docsOf m.site.uri (1 + beside.toNat) →
      f c = { c with openDocs := docsOf m.site.uri beside.toNat }) :
    Owes ((Assertion.phase read made true : Assertion m x).and (.locksBeside ticket beside))
      (Host.onClient m.client (.change f)) fun _ =>
        (Assertion.phase read made false).and (.ticket ticket) := by
  refine owes_client_act (f := fun c => ((), f c)) fun v hs ⟨hp, hl, ho⟩ => ?_
  dsimp only
  rw [hf v.client (openDocs_eq hs hp.holding ho)]
  exact ⟨_, move_drop hs hl _ (by rw [ho]),
    { hp with holding := Side.set_self .., told := nofun }, hl.1⟩

/-- A call takes hold of the document. -/
theorem owes_takeHold (ticket : Nat) :
    Owes ((Assertion.phase (.ok text) made false : Assertion m x).and (.locks ticket))
      (Host.onClient m.client (Client.takeHold m.site.uri text)) fun r =>
        (Assertion.fact (r = .ok ())).and
          ((Assertion.phase (.ok text) made true).and (.ticket ticket)) := by
  refine (owes_look ticket).client_bind fun c => owes_any fun beside => owes_fact fun hc => ?_
  obtain ⟨hlifecycle, hdocs⟩ := hc
  have hholders := holders_docsOf c m.site.uri _ hdocs
  cases beside with
  | false =>
    dsimp only
    rw [hlifecycle, hholders]
    refine (owes_openFirst ticket c.settings.languageId).client_bind fun r => owes_fact fun hr => ?_
    subst hr
    refine (owes_hold ticket false fun c => addDocument_docsOf c m.site.uri).client_bind fun _ => ?_
    exact owes_client_done fun _ _ hp => ⟨rfl, hp⟩
  | true =>
    dsimp only
    rw [hlifecycle, hholders]
    have hbefore : ∀ v, m.Sound v →
        ((Assertion.phase (.ok text) made false : Assertion m x).and
          (.locksBeside ticket true)).Holds v →
        ((Assertion.phase (.ok text) made false : Assertion m x).and
          (.locksTold ticket true text)).Holds v :=
      fun v hs ⟨hp, hl, ho⟩ => ⟨hp, ⟨hl, ho⟩, told_of_other hs hp.unwritten hp.known ho⟩
    refine .imp ?_ hbefore
    refine (owes_hold ticket true fun c => setHolders_docsOf c m.site.uri 0 1).client_bind fun _ => ?_
    exact owes_client_done fun _ _ hp => ⟨rfl, hp⟩

/-- A call lets go of the document, and closes it if nobody else holds it. -/
theorem owes_letGo {read : Except IoError String} (ticket : Nat) :
    Owes ((Assertion.phase read made true : Assertion m x).and (.locks ticket))
      (Host.onClient m.client (Client.letGo m.site.uri)) fun _ =>
        (Assertion.fact True).and ((Assertion.phase read made false).and (.ticket ticket)) := by
  refine (owes_look ticket).client_bind fun c => owes_any fun beside => owes_fact fun hc => ?_
  have hholders := holders_docsOf c m.site.uri _ hc.2
  cases beside with
  | false =>
    rw [hholders]
    refine (owes_drop ticket false fun c => removeDocument_docsOf c m.site.uri 1).client_bind
      fun _ => ?_
    have hclose : Owes ((Assertion.phase read made false : Assertion m x).and (.ticket ticket))
        (Host.onClient m.client (Client.notify "textDocument/didClose"
          (some (Params.ofDocument m.site.uri)))) fun r => (Assertion.fact (r = .ok ())).and
            ((Assertion.phase read made false).and (.ticket ticket)) :=
      owes_notify _ _ fun v hs hp =>
        ⟨move_didClose hs m.site.uri, { hp.1 with told := nofun }, hp.2⟩
    exact hclose.mono fun _ _ hq => ⟨trivial, hq.2⟩
  | true =>
    rw [hholders]
    refine (owes_drop ticket true fun c => setHolders_docsOf c m.site.uri 1 0).client_bind fun _ => ?_
    exact owes_client_done fun _ _ hp => ⟨trivial, hp⟩

theorem owes_openDocument :
    Owes (.phase (.ok text) made false : Assertion m x)
      (Host.onClient m.client (Client.openDocument m.site.uri text)) fun r =>
        (Assertion.fact (r = .ok ())).and (.phase (.ok text) made true) :=
  owes_locked owes_takeHold

theorem owes_closeDocument {read : Except IoError String} :
    Owes (.phase read made true : Assertion m x)
      (Host.onClient m.client (Client.closeDocument m.site.uri)) fun _ =>
        (Assertion.fact True).and (.phase read made false) :=
  owes_locked owes_letGo

end

/-! ## reading the file -/

section
variable {text : String} {made : Nat} {read : Except IoError String}

/-- A call that has not written reads what it may have read. -/
theorem owes_readText :
    Owes (.phase read made false : Assertion m x) (Tool.readText m.site.path) fun text =>
      .phase text made false := by
  have hread : Owes (.phase read made false : Assertion m x)
      (.read fun h => h.disk.readText m.site.path) fun text => .phase text made false :=
    owes_read fun s g hs hp =>
      { hp with known := hs.sound.files.reached.known hp.unwritten, told := nofun }
  exact hread.bind fun _ => owes_offload.bind fun _ => owes_done fun _ _ hp => hp

theorem owes_client {P : Assertion m x} :
    Owes P Tool.client fun k => (Assertion.fact (k = .ok m.client)).and P := by
  have hslot : Owes P (.read fun h => Session.clientOfSlot h.slot) fun k =>
      (Assertion.fact (k = .ok m.client)).and P :=
    owes_read fun s g hs hp => ⟨congrArg Session.clientOfSlot hs.standing.slot, hp⟩
  refine (owes_slot true hslot).bind fun k => owes_fact fun hk => ?_
  subst hk
  exact owes_done fun _ _ hp => ⟨rfl, hp⟩

end

/-! ## asking about the file -/

/-- The document as a call holds it. -/
def document (m : Meeting) (text : String) : Tool.OpenDocument :=
  ⟨m.client, m.site.uri, m.site.path, text⟩

/-- A file that leads to the place of the meeting. -/
def Leads (m : Meeting) (file : Path) : Prop :=
  normalizePath m.before.cwd (m.root.join file) = .ok m.site.path

/-- What comes of reading a file and going on with its text: nothing but a fault if it has none. -/
def ofText {α : Type} (made : Nat) (held : Bool) (result : String → Except ToolError α)
    (r : Except ToolError α) : Except IoError String → Assertion m x
  | .ok text => (Assertion.fact (r = result text)).and (.phase (.ok text) made held)
  | .error fault => (Assertion.fact (r.toOption = none)).and (.phase (.error fault) 0 false)

theorem owes_open {file : Path} (hf : m.Leads file) {read : Except IoError String} :
    Owes (.phase read 0 false : Assertion m x) (Tool.openDocument file) fun r =>
      .any (ofText 0 true (fun text => .ok (m.document text)) r) := by
  have hhost : Owes (.phase read 0 false : Assertion m x) (.read id) fun h =>
      (Assertion.fact (Tool.resolve h file = .ok m.site.path)).and (.phase read 0 false) := by
    refine owes_read fun s g hs hp => ⟨?_, hp⟩
    have hcwd : s.disk.cwd = m.before.cwd := hs.sound.files.cwd
    show (normalizePath s.disk.cwd (s.root.join file)).mapError _ = _
    rw [hcwd, hs.standing.root, show normalizePath _ _ = _ from hf]
    rfl
  refine hhost.bind fun h => owes_fact fun hh => ?_
  rw [hh]
  refine owes_readText.bind fun text => ?_
  cases text with
  | error fault => exact owes_done fun _ _ hp => ⟨.error fault, rfl, hp⟩
  | ok text =>
    refine owes_client.bind fun k => owes_fact fun hk => ?_
    subst hk
    refine owes_openDocument.bind fun held => owes_fact fun hheld => ?_
    subst hheld
    exact owes_done fun _ _ hp => ⟨.ok text, rfl, hp⟩

/-- A call asks about the file: its question is answered for the text that it has read. -/
theorem owes_askAbout {α : Type} {file : Path} {made : Nat} (hf : m.Leads file) (what : String)
    (question : Tool.OpenDocument → Routine Client (Except ClientError α))
    (answer : String → Except ClientError α)
    (hq : ∀ text, Owes (.phase (.ok text) 0 true : Assertion m x)
      (Host.onClient m.client (question (m.document text))) fun a =>
        (Assertion.fact (a = answer text)).and (.phase (.ok text) made true))
    {read : Except IoError String} :
    Owes (.phase read 0 false : Assertion m x) (Tool.ask file what question) fun r =>
      .any (ofText made false (fun text =>
        ((answer text).mapError (ToolError.request what)).map fun a => (m.document text, a)) r) := by
  refine (owes_open hf).bind fun r => owes_any fun read => ?_
  cases read with
  | error fault =>
    refine owes_fact fun hr => ?_
    cases r with
    | ok doc => cases hr
    | error e => exact owes_done fun _ _ hp => ⟨.error fault, rfl, hp⟩
  | ok text =>
    refine owes_fact fun hr => ?_
    subst hr
    refine (hq text).bind fun a => owes_fact fun ha => ?_
    subst ha
    have hclose : Owes (.phase (.ok text) made true : Assertion m x) (m.document text).close
        fun _ => .phase (.ok text) made false :=
      owes_closeDocument.bind fun _ => owes_done fun _ _ hp => hp.2
    exact hclose.bind fun _ => owes_done fun _ _ hp => ⟨.ok text, rfl, hp⟩

end Meeting

end CodeBridge
