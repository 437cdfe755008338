import CodeBridge.Proofs.Session.Runs

/-!
# Tools let go of what they open

However tool calls are mixed with one another and with everything else that is done to a session, the
holders of a document are the tool calls that have opened it and not closed it yet.

* `Call.holds`   a running tool call that has opened a document and not closed it;
* `Balanced`     what is so of documents and tool calls;
* `balanced_run`   it is so after any events.
-/

namespace CodeBridge

namespace Office

/-- A running tool call that has opened a document and has not closed it. -/
def Call.holds (c : Nat) (uri : String) (k : Call) : Bool :=
  k.deed.isTool && !k.ended && k.holding c uri

structure Balanced (o : Office) : Prop where
  held : ∀ c, (o.host.clientAt c).lifecycle ≠ .shutDown → ∀ uri,
    held c uri o.host = o.calls.countP (·.holds c uri)
  idle : (∀ k ∈ o.calls, k.deed.isTool = true → k.ended = true) →
    ∀ c, (o.host.clientAt c).openDocs = []
  /-- a call has opened the document that it is about, and closed it unless the client was shut
  down, when it ends well or fails with something that comes after that -/
  opened : ∀ k ∈ o.calls, ∀ request result, k.deed = .tool request →
    k.result? = some (.tool result) → request.hasOpened result = true →
    ∃ c uri, tookHold k.changes = only c uri ∧ (letGo k.changes = only c uri ∨
      letGo k.changes = (fun _ _ => 0) ∧ (o.host.clientAt c).lifecycle = .shutDown)
  /-- no server is told of a document by a call that fails before it has opened one -/
  unopened : ∀ k ∈ o.calls, ∀ request result, k.deed = .tool request →
    k.result? = some (.tool result) → request.hasOpened result = false →
    tookHold k.changes = (fun _ _ => 0) ∧ letGo k.changes = (fun _ _ => 0) ∧
      ∀ change ∈ k.changes, ∀ c, ∀ m ∈ told c change, isDocument m = false
  /-- what opens nothing tells no server of a document, whatever it ends with -/
  silent : ∀ k ∈ o.calls, k.deed.isTool = true → k.ended = true →
    tookHold k.changes = (fun _ _ => 0) →
    ∀ change ∈ k.changes, ∀ c, ∀ m ∈ told c change, isDocument m = false

/-! ## counting -/

theorem countP_eq_countP {α β : Type} {p : α → Bool} {q : β → Bool} {as : List α} {bs : List β}
    (hlength : as.length = bs.length)
    (h : ∀ (i : Nat) a b, as[i]? = some a → bs[i]? = some b → p a = q b) :
    as.countP p = bs.countP q := by
  apply Nat.le_antisymm
  · apply Desk.countP_le_countP
    intro i a ha
    have hi : i < bs.length := hlength ▸ (List.getElem?_eq_some_iff.mp ha).1
    have hb := List.getElem?_eq_getElem hi
    exact ⟨_, hb, fun hp => (h i a _ ha hb).symm.trans hp⟩
  · apply Desk.countP_le_countP
    intro i b hb
    have hi : i < as.length := hlength ▸ (List.getElem?_eq_some_iff.mp hb).1
    have ha := List.getElem?_eq_getElem hi
    exact ⟨_, ha, fun hq => (h i _ b ha hb).trans hq⟩

/-- What is noted of a document tells who holds one. -/
theorem Fits.holding {host : Host} {k : Call} {grip : Grip} {c : Nat} {uri : String}
    (hf : Fits host k.changes grip) (hlife : (host.clientAt c).lifecycle ≠ .shutDown) :
    k.holding c uri = true ↔ grip = .holds c uri := by
  have hcounts : k.holding c uri = true ↔ letGo k.changes c uri < tookHold k.changes c uri :=
    decide_eq_true_iff
  rw [hcounts]
  cases hf with
  | fresh ht hd => simp [ht, hd]
  | told ht hd => simp [ht, hd]
  | holds ht hd =>
    simp only [ht, hd, only]
    split
    next heq => simp [heq.1, heq.2]
    next hne =>
      refine ⟨fun hlt => absurd hlt (Nat.lt_irrefl 0), fun heq => absurd ?_ hne⟩
      obtain ⟨hc, hu⟩ := Grip.holds.inj heq
      exact ⟨hc.symm, hu.symm⟩
  | dropped ht hd => simp [ht, hd]
  | @forgot c' uri' ht hd hleft =>
    have hne : ¬ (c = c' ∧ uri = uri') := by
      rintro ⟨rfl, rfl⟩
      exact hlife hleft
    simp [ht, hd, only, hne]

/-- A call of which nothing is noted that has to do with a document tells no server of one. -/
theorem Tracks.silent {host : Host} {k : Call} {e : Entry} (ht : Tracks host k e)
    (htool : k.deed.isTool = true) (hgrip : e.grip = .fresh) :
    ∀ change ∈ k.changes, ∀ c, ∀ m ∈ told c change, isDocument m = false := by
  intro change hmem c m hm
  obtain ⟨-, hallowed⟩ := ht.speech change hmem c m hm
  cases hd : k.deed with
  | tool request =>
    rw [ht.deed, hd] at hallowed
    exact Bool.eq_false_iff.mpr fun hdoc => hallowed hdoc hgrip
  | _ => rw [hd] at htool; cases htool

section
variable {o : Office} {g : Notes} (h : Good o g)
include h

/-! ## tool calls that have ended -/

theorem Good.tool_ended {i : Nat} {k : Call} {request : ToolRequest} {outcome : Outcome}
    (hk : o.calls[i]? = some k) (hdeed : k.deed = .tool request)
    (hr : k.result? = some outcome) : ∃ result e, outcome = .tool result ∧
      g.entries[i]? = some e ∧ Tracks o.host k e ∧
      bif request.hasOpened result then ∃ c uri, e.grip = .released c uri
      else e.grip = .fresh := by
  have hend := h.complete hk hr
  obtain ⟨e, he, ht⟩ := h.tracks i k hk
  rw [hdeed] at hend
  cases outcome with
  | tool result =>
    refine ⟨result, e, rfl, he, ht, ?_⟩
    replace hend : (served k.entry request result).Holds (o.host, g) := hend
    unfold served at hend
    cases hopened : request.hasOpened result with
    | true =>
      rw [hopened] at hend
      obtain ⟨doc, he', -⟩ := hend
      obtain rfl := Option.some.inj (he.symm.trans he')
      exact ⟨doc.1, doc.2, rfl⟩
    | false =>
      rw [hopened] at hend
      obtain rfl := Option.some.inj (he.symm.trans hend.1)
      rfl
  | plain result => exact hend.elim
  | client result => exact hend.elim
  | running answer => exact hend.elim

/-! ## documents and calls -/

/-- A call is noted to hold a document just as long as it does. -/
theorem Good.holds_iff {i : Nat} {k : Call} {e : Entry} {c : Nat} {uri : String}
    (hk : o.calls[i]? = some k) (he : g.entries[i]? = some e)
    (hlife : (o.host.clientAt c).lifecycle ≠ .shutDown) :
    e.grip = .holds c uri ↔ k.holds c uri = true := by
  obtain ⟨f, hf, ht⟩ := h.tracks i k hk
  obtain rfl := Option.some.inj (he.symm.trans hf)
  unfold Call.holds
  rw [Bool.and_eq_true, Bool.and_eq_true, Bool.not_eq_true']
  constructor
  · intro hgrip
    have htool : k.deed.isTool = true := by
      by_contra hno
      have hfresh := ht.fresh (Bool.eq_false_iff.mpr hno)
      exact nomatch hgrip.symm.trans hfresh
    have hholding := ((ht.fits htool).holding hlife).mpr hgrip
    refine ⟨⟨htool, ?_⟩, hholding⟩
    -- an ended call has let go of its document
    cases hdeed : k.deed with
    | tool request =>
      cases hr : k.result? with
      | none => unfold Call.ended; rw [hr]; rfl
      | some outcome =>
        obtain ⟨result, e', -, he', -, hend⟩ := h.tool_ended hk hdeed hr
        obtain rfl := Option.some.inj (he.symm.trans he')
        rw [hgrip] at hend
        cases hopened : request.hasOpened result with
        | true => rw [hopened] at hend; obtain ⟨_, _, hend⟩ := hend; cases hend
        | false => rw [hopened] at hend; cases hend
    | _ => rw [hdeed] at htool; cases htool
  · rintro ⟨⟨htool, -⟩, hholding⟩
    exact ((ht.fits htool).holding hlife).mp hholding

theorem Good.held_eq {c : Nat} (hlife : (o.host.clientAt c).lifecycle ≠ .shutDown) (uri : String) :
    held c uri o.host = o.calls.countP (·.holds c uri) := by
  calc held c uri o.host = countIn ((board o.host).docs c) uri := rfl
    _ = (g.entries.map (·.grip)).count (.holds c uri) := h.sound.papers.ledger c hlife uri
    _ = g.entries.countP fun e => e.grip == .holds c uri := by
      rw [List.count, List.countP_map]
      rfl
    _ = o.calls.countP (·.holds c uri) := by
      apply countP_eq_countP h.length
      intro i e k he hk
      rw [Bool.eq_iff_iff, beq_iff_eq]
      exact h.holds_iff hk he hlife

theorem Good.nothing_open {c : Nat} (hnone : ∀ k ∈ o.calls, ∀ uri, k.holds c uri = false) :
    (o.host.clientAt c).openDocs = [] := by
  by_cases hlife : (o.host.clientAt c).lifecycle = .shutDown
  · exact h.sound.papers.emptied c hlife
  · apply List.eq_nil_iff_forall_not_mem.mpr
    intro doc hdoc
    have hzero : held c doc.1 o.host = 0 := by
      rw [h.held_eq hlife]
      apply List.countP_eq_zero.mpr
      intro k hk
      rw [hnone k hk]
      exact Bool.false_ne_true
    -- the document is listed with somebody who holds it
    have hsome : ((o.host.clientAt c).openDocs.find? fun d => d.1 = doc.1).isSome = true := by
      rw [List.find?_isSome]
      exact ⟨doc, hdoc, decide_eq_true rfl⟩
    obtain ⟨d, hd⟩ := Option.isSome_iff_exists.mp hsome
    have hpos : 1 ≤ d.2 := h.sound.papers.counts c d (List.mem_of_find?_eq_some hd)
    have hcount : held c doc.1 o.host = d.2 := by
      unfold held Client.holders
      rw [hd]
      rfl
    omega

theorem Good.balanced : Balanced o where
  held c hlife uri := h.held_eq hlife uri
  idle hended c := by
    apply h.nothing_open
    intro k hk uri
    unfold Call.holds
    cases htool : k.deed.isTool with
    | false => rfl
    | true => rw [hended k hk htool]; rfl
  opened k hk request result hdeed hr hopened := by
    obtain ⟨i, hi⟩ := List.getElem?_of_mem hk
    obtain ⟨_, e, hsame, -, ht, hend⟩ := h.tool_ended hi hdeed hr
    obtain rfl := Outcome.tool.inj hsame
    rw [hopened] at hend
    obtain ⟨c, uri, hgrip⟩ := hend
    have hfits := ht.fits (by rw [hdeed]; rfl)
    rw [hgrip] at hfits
    cases hfits with
    | dropped htook hlet => exact ⟨c, uri, htook, .inl hlet⟩
    | forgot htook hlet hleft => exact ⟨c, uri, htook, .inr ⟨hlet, hleft⟩⟩
  unopened k hk request result hdeed hr hopened := by
    obtain ⟨i, hi⟩ := List.getElem?_of_mem hk
    obtain ⟨_, e, hsame, -, ht, hend⟩ := h.tool_ended hi hdeed hr
    obtain rfl := Outcome.tool.inj hsame
    rw [hopened] at hend
    have htool : k.deed.isTool = true := by rw [hdeed]; rfl
    have hfits := ht.fits htool
    rw [hend] at hfits
    cases hfits with
    | fresh htook hlet => exact ⟨htook, hlet, ht.silent htool hend⟩
  silent k hk htool hended hnone := by
    obtain ⟨i, hi⟩ := List.getElem?_of_mem hk
    obtain ⟨outcome, hr⟩ := Option.isSome_iff_exists.mp hended
    cases hdeed : k.deed with
    | tool request =>
      obtain ⟨result, e, -, -, ht, hend⟩ := h.tool_ended hi hdeed hr
      cases hopened : request.hasOpened result with
      | false => rw [hopened] at hend; exact ht.silent htool hend
      | true =>
        -- it has taken hold of something, after all
        rw [hopened] at hend
        obtain ⟨c, uri, hgrip⟩ := hend
        have hfits := ht.fits htool
        rw [hgrip] at hfits
        have htook : tookHold k.changes = only c uri := by cases hfits <;> assumption
        have hone := congrFun (congrFun (hnone.symm.trans htook) c) uri
        simp [only] at hone
    | _ => rw [hdeed] at htool; cases htool

end

/-- Tool calls release what they open, whatever happens in whatever order. -/
theorem balanced_run {host : Host} (hfresh : Fresh host) (events : List Event) :
    Balanced (({ host := host } : Office).run events) := by
  obtain ⟨g, hgood⟩ := good_reach hfresh events
  exact hgood.balanced

/-- An empty file on the disk, and a client in the slot that has greeted its server. -/
def withFile : Host where
  disk := { system := ⟨[([Utf8.ofString "a"], .file [] 0o644)]⟩, cwd := none }
  root := .ofString "/"
  slot := .running 0
  clients := [{ lifecycle := .initialized }]

theorem fresh_withFile : Fresh withFile := fresh_single rfl rfl rfl rfl rfl nofun

/-- Two calls are to format a file, and a third is to rename something in a line that cannot be. -/
def threeTools : List Event :=
  let file : Path := .ofString "/a"
  [.begin (.tool (.formatCode file)), .begin (.tool (.formatCode file)),
    .begin (.tool (.renameSymbol file 0 1 "b"))] ++ moves 30 0 ++ moves 30 1 ++ moves 4 2

theorem threeTools_balanced :
    let o := ({ host := withFile } : Office).run threeTools
    Fresh withFile ∧ Balanced o ∧ held 0 "file:///a" o.host = 2 ∧
      o.calls.map (·.holds 0 "file:///a") = [true, true, false] ∧
      o.calls.map (·.ended) = [false, false, true] := by
  intro o
  exact ⟨fresh_withFile, balanced_run fresh_withFile threeTools, by decide +kernel,
    by decide +kernel, by decide +kernel⟩

end Office

end CodeBridge
