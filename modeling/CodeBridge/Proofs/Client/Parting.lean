import CodeBridge.Proofs.Client.Talk

/-!
# What a client says when it leaves

A client that shuts down closes the documents that are open, in order, asks the server to shut down
and tells it to exit.  Every step is tried, whatever became of those before it; nothing that is
queued is left out before something that is.

* `goodbye`     the messages of a shutdown, the first one first;
* `outcomes`    what the steps come to when so many of the messages are queued;
* `Sofar`       how far a shutdown is: `owes_tell`, `owes_ask` are one more message;
* `Parted`      what a shutdown ends in: `owes_farewell`.
-/

namespace CodeBridge

namespace Course

open Connection Pact

/-! ## the steps of a shutdown -/

/-- The messages of a shutdown, `id` being the number of its request. -/
def goodbye (docs : List String) (id : UInt64) : List Json :=
  docs.map (fun uri => Message.notification "textDocument/didClose" (some (Params.ofDocument uri))) ++
    [Message.request id "shutdown" none, Message.notification "exit" none]

/-- What the notification at a place comes to when so many messages are queued. -/
def tell (queued place : Nat) : Except ClientError Unit :=
  if place < queued then .ok () else .error .connectionClosed

/-- What the steps of a shutdown come to: of so many documents, when so many messages are queued,
with the result of the request and with the end of the process. -/
def outcomes (docs queued : Nat) (called : Except ClientError Json)
    (seen : Except ClientError Unit) : List (Except ClientError Unit) :=
  (List.range docs).map (tell queued) ++
    [called.map fun _ => (), tell queued (docs + 1), seen]

def firstFault (steps : List (Except ClientError Unit)) : Option ClientError :=
  steps.findSome? fun
    | .error fault => some fault
    | .ok () => none

/-- Only when no step failed has the whole not failed. -/
def verdict (steps : List (Except ClientError Unit)) : Except ClientError Unit :=
  match firstFault steps with
  | none => .ok ()
  | some fault => .error fault

theorem firstFault_concat {α : Type} (steps : List (Except ClientError Unit))
    (result : Except ClientError α) :
    firstFault (steps ++ [result.map fun _ => ()]) =
      Client.keepFirst (firstFault steps) result := by
  unfold firstFault
  rw [List.findSome?_append]
  cases h : List.findSome? _ steps with
  | some fault => rfl
  | none => cases result <;> rfl

theorem tell_min {queued place n : Nat} (h : place < n) : tell (min queued n) place = tell queued place := by
  unfold tell
  congr 1
  exact propext ⟨fun hlt => Nat.lt_of_lt_of_le hlt (Nat.min_le_left _ _),
    fun hlt => Nat.lt_min.mpr ⟨hlt, h⟩⟩

theorem getElem_goodbye {docs : List String} (id : UInt64) {i : Nat} (hi : i < docs.length) :
    (goodbye docs id)[i]? = some (Message.notification "textDocument/didClose"
      (some (Params.ofDocument docs[i]))) := by
  unfold goodbye
  rw [List.getElem?_append_left (by rwa [List.length_map]), List.getElem?_map,
    List.getElem?_eq_getElem hi]
  rfl

theorem getElem_goodbye_shutdown (docs : List String) (id : UInt64) :
    (goodbye docs id)[docs.length]? = some (Message.request id "shutdown" none) := by
  unfold goodbye
  rw [List.getElem?_append_right (by rw [List.length_map]), List.length_map, Nat.sub_self]
  rfl

theorem getElem_goodbye_exit (docs : List String) (id : UInt64) :
    (goodbye docs id)[docs.length + 1]? = some (Message.notification "exit" none) := by
  unfold goodbye
  rw [List.getElem?_append_right (by rw [List.length_map]; omega), List.length_map,
    Nat.add_sub_cancel_left]
  rfl

theorem take_succ_of_getElem? {seq : List Json} {i : Nat} {m : Json} (h : seq[i]? = some m) :
    seq.take (i + 1) = seq.take i ++ [m] := by
  rw [List.take_add_one, h]
  rfl

/-! ## what outlasts messages -/

/-- Something that goes on being so while the client is left alone, and when it queues something. -/
structure Durable (φ : World → Prop) : Prop where
  steady : Steady φ
  posted : ∀ v w, φ w → φ (Course.posted v w)

theorem Durable.and {φ ψ : World → Prop} (h : Durable φ) (h' : Durable ψ) :
    Durable fun w => φ w ∧ ψ w :=
  ⟨h.steady.and h'.steady, fun v w hw => ⟨h.posted v w hw.1, h'.posted v w hw.2⟩⟩

theorem durable_const (p : Prop) : Durable fun _ => p := ⟨steady_const p, fun _ _ h => h⟩

/-- The connection was down before, or has been lost. -/
def Gone (down : Prop) (items : List Item) : Prop := down ∨ .lost ∈ items

theorem Gone.mono {down : Prop} {a b : List Item} (h : Gone down a) (hab : ∀ i ∈ a, i ∈ b) :
    Gone down b := h.imp id (hab _)

/-- As long as the connection is up its writer is. -/
def Upright (down : Prop) (w : World) : Prop :=
  down ∨ w.1.connection.Writes ∧ (w.1.connection.closed = true → .lost ∈ w.2)

theorem durable_upright (down : Prop) : Durable (Upright down) where
  steady w w' h hu := by
    refine hu.imp id fun hu => ⟨h.link.writes hu.1, fun hc => ?_⟩
    exact (h.link.lost hc).elim (fun hc => h.link.mem (hu.2 hc)) id
  posted v w hu := by
    exact hu.imp id fun hu => ⟨hu.1.message v, fun hc => List.mem_append_left _ (hu.2 hc)⟩

theorem Upright.gone {down : Prop} {w : World} (h : Upright down w) (hm : Muted w) :
    Gone down w.2 := by
  refine h.imp id fun h => h.2 ?_
  cases hc : w.1.connection.closed with
  | true => rfl
  | false =>
    have hw := (h.1 hc).1
    exact hm.elim (fun hm => hc.symm.trans hm) fun hm => absurd (hw.symm.trans hm) nofun

def Leaving (w : World) : Prop := w.1.lifecycle = .shutDown ∧ w.1.openDocs = []

theorem durable_leaving : Durable Leaving :=
  ⟨fun _ _ h hl => ⟨h.lifecycle.trans hl.1, h.openDocs.trans hl.2⟩, fun _ _ h => h⟩

def Answered (down : Prop) (method : String) (id : UInt64) (called : Except ClientError Json)
    (w : World) : Prop :=
  match called with
  | .ok value => Message.request id method none ∈ tolds w.2 ∧ Got id (.result value) w.2
  | .error (.server m code message) => m = method ∧
      Message.request id method none ∈ tolds w.2 ∧ Got id (.refused ⟨code, message⟩) w.2
  | .error (.timeout m limit) => m = method ∧
      Message.request id method none ∈ tolds w.2 ∧ limit = w.1.connection.callLimit
  | .error .connectionClosed => Gone down w.2
  | .error _ => False

theorem durable_answered (down : Prop) (method : String) (id : UInt64)
    (called : Except ClientError Json) : Durable (Answered down method id called) := by
  have hmem (m : Json) : Durable fun w => m ∈ tolds w.2 := by
    refine ⟨fun w w' h hm => ?_, fun v w hm => ?_⟩
    · have he : tolds w'.2 = tolds w.2 := h.link.tolds_eq
      rwa [he]
    · show m ∈ tolds (w.2 ++ [.told v])
      rw [tolds_concat]
      exact List.mem_append_left _ hm
  have hgot (answer : Answer) : Durable fun w => Got id answer w.2 :=
    ⟨steady_got id answer, fun _ _ hg => hg.mono fun _ => List.mem_append_left _⟩
  have hgone : Durable fun w => Gone down w.2 :=
    ⟨fun _ _ h hg => hg.mono fun _ => h.link.mem, fun _ _ hg => hg.mono fun _ => List.mem_append_left _⟩
  cases called with
  | ok value => exact (hmem _).and (hgot _)
  | error fault =>
    cases fault with
    | server m code message => exact (durable_const _).and ((hmem _).and (hgot _))
    | timeout m limit =>
      exact (durable_const _).and ((hmem _).and
        ⟨steady_constants fun k => limit = k.1, fun _ _ h => h⟩)
    | connectionClosed => exact hgone
    | _ => exact durable_const False

/-! ## one more message -/

/-- So many messages are queued of the first `i`, and all of them unless nothing can be queued any
more; `R` is so with that number. -/
def Sofar (seq : List Json) (i : Nat) (R : Nat → World → Prop) (w : World) : Prop :=
  ∃ j ≤ i, tolds w.2 = seq.take j ∧ (j = i ∨ Muted w) ∧ R j w

/-- The same when the connection has just been up. -/
def Ready (seq : List Json) (i : Nat) (R : Nat → World → Prop) (w : World) : Prop :=
  ∃ j ≤ i, tolds w.2 = seq.take j ∧ (j = i ∨ w.1.connection.writing = false) ∧ R j w

section
variable {seq : List Json} {i : Nat} {R : Nat → World → Prop}

theorem steady_sofar (seq : List Json) (i : Nat) (hR : ∀ j, Durable (R j)) : Steady (Sofar seq i R) :=
  fun w w' h ⟨j, hj, ht, hm, hr⟩ => ⟨j, hj, h.link.tolds_eq.trans ht,
    hm.imp id (steady_muted w w' h), (hR j).steady w w' h hr⟩

theorem steady_ready (seq : List Json) (i : Nat) (hR : ∀ j, Durable (R j)) : Steady (Ready seq i R) :=
  fun w w' h ⟨j, hj, ht, hm, hr⟩ => ⟨j, hj, h.link.tolds_eq.trans ht,
    hm.imp id (steady_unwritten w w' h), (hR j).steady w w' h hr⟩

theorem ready_of_sofar {w : World} (h : Sofar seq i R w) (hc : w.1.connection.closed = false) :
    Ready seq i R w := by
  obtain ⟨j, hj, ht, hm, hr⟩ := h
  refine ⟨j, hj, ht, hm.imp id fun hm => ?_, hr⟩
  exact hm.resolve_left fun h => nomatch hc.symm.trans h

theorem sofar_of_ready {w : World} (h : Ready seq i R w) : Sofar seq i R w := by
  obtain ⟨j, hj, ht, hm, hr⟩ := h
  exact ⟨j, hj, ht, hm.imp id .inr, hr⟩

/-- While the writer is up nothing has been left out. -/
theorem Ready.all {w : World} (h : Ready seq i R w) (hw : w.1.connection.writing = true) :
    tolds w.2 = seq.take i ∧ R i w := by
  obtain ⟨j, hj, ht, hm, hr⟩ := h
  obtain rfl : j = i := hm.resolve_right fun h => nomatch hw.symm.trans h
  exact ⟨ht, hr⟩

theorem Sofar.skip {w : World} {R' : Nat → World → Prop} (h : Sofar seq i R w) (hm : Muted w)
    (hr : ∀ j ≤ i, R j w → R' j w) : Sofar seq (i + 1) R' w := by
  obtain ⟨j, hj, ht, -, h⟩ := h
  exact ⟨j, Nat.le_succ_of_le hj, ht, .inr hm, hr j hj h⟩

theorem tolds_posted {w : World} {m : Json} (ht : tolds w.2 = seq.take i)
    (hi : seq[i]? = some m) : tolds (posted m w).2 = seq.take (i + 1) := by
  show tolds (w.2 ++ [.told m]) = _
  rw [tolds_concat, ht, take_succ_of_getElem? hi]

end

section
variable {law : Law} {seq : List Json} {i : Nat} {R : Nat → World → Prop} {line : List Nat}
  {τ : Link → Prop} {hτ : Lasting τ} {method : String}
  (hR : ∀ j, Durable (R j))
include hR

/-- What comes to be so of a message: it ends as the number of those that are queued says. -/
theorem durable_told (i : Nat) (result : Except ClientError Unit) (j : Nat) :
    Durable fun w => R (min j i) w ∧ result = tell j i := (hR _).and (durable_const _)

theorem owes_tell (hlaw : ∀ g j m, tolds g = seq.take j → seq[j]? = some m → law.Allows g →
      law.Allows (g ++ [.told m])) {params : Option Json}
    (hi : seq[i]? = some (Message.notification method params)) :
    Owes (knows line (steady_sofar seq i hR) hτ : Assertion (pact law))
      (Client.notify method params) fun result =>
        knows line (steady_sofar seq (i + 1) (durable_told hR i result)) hτ := by
  have hskip (w : World) (h : Sofar seq i R w) (hm : Muted w) : Sofar seq (i + 1)
      (fun j w => R (min j i) w ∧ .error .connectionClosed = tell j i) w := by
    refine h.skip hm fun j hj hr => ⟨?_, (if_neg (Nat.not_lt.mpr hj)).symm⟩
    rwa [Nat.min_eq_left hj]
  refine owes_notify (R := knows line (steady_ready seq i hR) hτ)
    (fun w hp hc => ⟨hp.1, hskip w hp.2.1 (.inl hc), hp.2.2⟩)
    (fun w hp hc => ⟨hp.1, ready_of_sofar hp.2.1 hc, hp.2.2⟩) (fun w hfine hp hw => ?_)
    fun w hp hw => ⟨hp.1, hskip w (sofar_of_ready hp.2.1) (.inr hw), hp.2.2⟩
  obtain ⟨ht, hr⟩ := Ready.all hp.2.1 hw
  refine ⟨hlaw _ i _ ht hi hfine, hp.1, ⟨i + 1, Nat.le_refl _, tolds_posted ht hi, .inl rfl, ?_⟩,
    hτ _ _ (tabled_posted _ w) hp.2.2⟩
  have hmin : min (i + 1) i = i := Nat.min_eq_right (Nat.le_succ i)
  exact ⟨hmin.symm ▸ (hR i).posted _ w hr, (if_pos (Nat.lt_succ_self i)).symm⟩

end

section
variable {law : Law} {seq : List Json} {i : Nat} {R : Nat → World → Prop} {line : List Nat}
  {down : Prop} {method : String}

theorem owes_ask (hlaw : ∀ g j m, tolds g = seq.take j → seq[j]? = some m → law.Allows g →
      law.Allows (g ++ [.told m]))
    (hR : ∀ j, Durable (R j)) (hup : ∀ j w, R j w → Upright down w) {S : UInt64 → Prop}
    {id : UInt64} (hid : ¬ S id) (hi : seq[i]? = some (Message.request id method none)) :
    Owes (knows line (steady_sofar seq i hR) (lasting_next S id) :
        Assertion (pact law))
      (Client.call method none) fun called =>
        knows line (steady_sofar seq (i + 1) fun j =>
          (hR (min j i)).and (durable_answered down method id called))
          (lasting_only S) := by
  let asked (w : World) : Prop := tolds w.2 = seq.take (i + 1) ∧ R i w
  have hasked : Steady asked := fun w w' h hw =>
    ⟨h.link.tolds_eq.trans hw.1, (hR i).steady w w' h hw.2⟩
  have hcall : Owes (knows line (steady_sofar seq i hR) (lasting_next S id) : Assertion (pact law))
      (Client.call method none) fun called =>
        knows line (steady_called method id (steady_sofar seq i hR) hasked called) (lasting_only S) := by
    refine owes_call (steady_sofar seq i hR) hasked (steady_ready seq i hR) hid
      (fun w h hc => ready_of_sofar h hc) (fun w h => sofar_of_ready h) fun w hfine h hw => ?_
    obtain ⟨ht, hr⟩ := h.all hw
    exact ⟨hlaw _ i _ ht hi hfine, tolds_posted ht hi, (hR i).posted _ w hr⟩
  refine hcall.mono fun called w _ hp => ⟨hp.1, ?_, hp.2.2⟩
  have hmem (h : asked w) : Message.request id method none ∈ tolds w.2 := by
    rw [h.1, take_succ_of_getElem? hi]
    exact List.mem_append_right _ List.mem_cons_self
  have htold (h : asked w) (hanswered : Answered down method id called w) :
      Sofar seq (i + 1) (fun j w => R (min j i) w ∧ Answered down method id called w) w := by
    refine ⟨i + 1, Nat.le_refl _, h.1, .inl rfl, ?_, hanswered⟩
    rw [Nat.min_eq_right (Nat.le_succ i)]
    exact h.2
  have hcalled : Called method id (Sofar seq i R) asked called w := hp.2.1
  cases called with
  | ok value => exact htold hcalled.1 ⟨hmem hcalled.1, hcalled.2⟩
  | error fault =>
    cases fault with
    | server m code message =>
      obtain ⟨hm, ha, hgot⟩ := hcalled
      exact htold ha ⟨hm, hmem ha, hgot⟩
    | timeout m limit =>
      obtain ⟨hm, ha, hlimit⟩ := hcalled
      exact htold ha ⟨hm, hmem ha, hlimit⟩
    | connectionClosed =>
      obtain ⟨hua, hmuted⟩ := hcalled
      rcases hua with hu | ha
      · refine Sofar.skip hu hmuted fun j hj hr => ⟨?_, (hup j w hr).gone hmuted⟩
        rwa [Nat.min_eq_left hj]
      · exact htold ha ((hup i w ha.2).gone hmuted)
    | _ => exact hcalled.elim

end

/-! ## the whole -/

def inOrder (docs : List (String × Nat)) : List String := (docs.map (·.1)).mergeSort (· ≤ ·)

/-- The first fault of the first `i` documents is known when so many messages are queued. -/
def Trying (down : Prop) (i : Nat) (first : Option ClientError) (queued : Nat) (w : World) : Prop :=
  (Leaving w ∧ Upright down w) ∧ first = firstFault ((List.range i).map (tell queued))

/-- What a shutdown comes to before the connection is closed. -/
def Spoken (down : Prop) (docs : List String) (id : UInt64) (called : Except ClientError Json)
    (first : Option ClientError) (w : World) : Prop :=
  Leaving w ∧ ∃ queued ≤ docs.length + 2, tolds w.2 = (goodbye docs id).take queued ∧
    (queued = docs.length + 2 ∨ Gone down w.2) ∧ Answered down "shutdown" id called w ∧
      first = firstFault ((List.range docs.length).map (tell queued) ++
        [called.map fun _ => (), tell queued (docs.length + 1)])

/-- What a shutdown ends in: some messages are queued and no others, all of them unless the connection
is gone, and the result is the error of the first step that failed. -/
def Parted (down : Prop) (docs : List String) (id : UInt64) (result : Except ClientError Unit)
    (w : World) : Prop :=
  (Leaving w ∧ w.1.connection.closed = true) ∧
    ∃ queued ≤ docs.length + 2, tolds w.2 = (goodbye docs id).take queued ∧
      (queued = docs.length + 2 ∨ Gone down w.2) ∧ ∃ called seen,
        Answered down "shutdown" id called w ∧ SeenOff seen w ∧
          result = verdict (outcomes docs.length queued called seen)

section
variable {down : Prop} {docs : List String} {id : UInt64} {i j : Nat}

theorem durable_trying (down : Prop) (i : Nat) (first : Option ClientError) (j : Nat) :
    Durable (Trying down i first j) :=
  (durable_leaving.and (durable_upright down)).and (durable_const _)

theorem steady_spoken (down : Prop) (docs : List String) (id : UInt64) (called : Except ClientError Json) (first : Option ClientError) :
    Steady (Spoken down docs id called first) :=
  fun w w' h ⟨hl, j, hj, ht, hg, ha, hf⟩ => ⟨durable_leaving.steady w w' h hl, j, hj,
    h.link.tolds_eq.trans ht, hg.imp_right fun hg => hg.mono fun _ => h.link.mem,
    (durable_answered down "shutdown" id called).steady w w' h ha, hf⟩

theorem steady_parted (down : Prop) (docs : List String) (id : UInt64)
    (result : Except ClientError Unit) : Steady (Parted down docs id result) :=
  fun w w' h ⟨hl, j, hj, ht, hg, called, seen, ha, hs, hr⟩ =>
    ⟨⟨durable_leaving.steady w w' h hl.1, steady_closed w w' h hl.2⟩, j, hj,
      h.link.tolds_eq.trans ht, hg.imp_right fun hg => hg.mono fun _ => h.link.mem, called, seen,
      (durable_answered down "shutdown" id called).steady w w' h ha, steady_seenOff seen w w' h hs, hr⟩

theorem Trying.step {first : Option ClientError} {w : World} {result : Except ClientError Unit}
    (h : Trying down i first (min j i) w) (hr : result = tell j i) :
    Trying down (i + 1) (Client.keepFirst first result) j w := by
  refine ⟨h.1, ?_⟩
  have hsame : (List.range i).map (tell (min j i)) = (List.range i).map (tell j) :=
    List.map_congr_left fun k hk => tell_min (List.mem_range.mp hk)
  have hself : result.map (fun _ => ()) = tell j i := by
    rw [← hr]
    cases result <;> rfl
  have hfirst := firstFault_concat ((List.range i).map (tell j)) result
  rw [hself] at hfirst
  rw [h.2, hsame, List.range_succ, List.map_append]
  exact hfirst.symm

end

section
variable {law : Law} {down : Prop} {docs : List String} {id : UInt64} {line : List Nat}
  {τ : Link → Prop} {hτ : Lasting τ}
  (hlaw : ∀ g j m, tolds g = (goodbye docs id).take j → (goodbye docs id)[j]? = some m →
    law.Allows g → law.Allows (g ++ [.told m]))
include hlaw

/-- The documents that are left are closed, one after the other. -/
theorem owes_closeAll (rest before : List String) (hdocs : docs = before ++ rest)
    (first : Option ClientError) :
    Owes (knows line (steady_sofar (goodbye docs id) before.length
        (durable_trying down before.length first)) hτ : Assertion (pact law))
      (Client.closeAll rest first) fun first =>
        knows line (steady_sofar (goodbye docs id) docs.length
          (durable_trying down docs.length first)) hτ := by
  induction rest generalizing before first with
  | nil =>
    obtain rfl : docs = before := hdocs.trans (List.append_nil before)
    exact owes_done fun _ _ hp => hp
  | cons uri rest ih =>
    have hlt : before.length < docs.length := by
      rw [hdocs, List.length_append, List.length_cons]
      omega
    have hget : docs[before.length] = uri := by
      subst hdocs
      rw [List.getElem_append_right (Nat.le_refl _)]
      simp only [Nat.sub_self, List.getElem_cons_zero]
    have hi := getElem_goodbye id hlt
    rw [hget] at hi
    refine (owes_tell (durable_trying down before.length first) hlaw hi).bind fun result => ?_
    have hnext := ih (before ++ [uri]) (by rw [hdocs, List.append_assoc]; rfl)
      (Client.keepFirst first result)
    refine ⟨fun w hw hp => hnext.keeps w hw ⟨hp.1, ?_, hp.2.2⟩⟩
    obtain ⟨j, hj, ht, hm, hr⟩ := hp.2.1
    rw [List.length_append]
    exact ⟨j, hj, ht, hm, hr.1.step hr.2⟩

omit hlaw in
/-- Everything has been queued, or the connection is gone. -/
theorem spoken_of_sofar {first : Option ClientError} {called : Except ClientError Json}
    {left : Except ClientError Unit} {w : World}
    (h : Sofar (goodbye docs id) (docs.length + 1 + 1) (fun j w =>
      (Trying down docs.length first (min (min j (docs.length + 1)) docs.length) w ∧
        Answered down "shutdown" id called w) ∧ left = tell j (docs.length + 1)) w) :
    Spoken down docs id called (Client.keepFirst (Client.keepFirst first called) left) w := by
  obtain ⟨j, hj, ht, hm, ⟨⟨⟨hleaving, hup⟩, hfirst⟩, hanswered⟩, hleft⟩ := h
  refine ⟨hleaving, j, hj, ht, hm.imp_right hup.gone, hanswered, ?_⟩
  have hsame : (List.range docs.length).map (tell (min (min j (docs.length + 1)) docs.length)) =
      (List.range docs.length).map (tell j) := by
    refine List.map_congr_left fun k hk => ?_
    have hk := List.mem_range.mp hk
    rw [tell_min hk, tell_min (Nat.lt_succ_of_lt hk)]
  have hself : left.map (fun _ => ()) = tell j (docs.length + 1) := by
    rw [← hleft]
    cases left <;> rfl
  have hcalled := firstFault_concat ((List.range docs.length).map (tell j)) called
  have hlast := firstFault_concat
    ((List.range docs.length).map (tell j) ++ [called.map fun _ => ()]) left
  rw [hself, hcalled, List.append_assoc] at hlast
  rw [hfirst, hsame]
  exact hlast.symm

omit hlaw in
theorem parted_of_spoken {called : Except ClientError Json} {first : Option ClientError}
    {seen : Except ClientError Unit} {w : World} (h : Spoken down docs id called first w)
    (hclosed : w.1.connection.closed = true) (hseen : SeenOff seen w) :
    Parted down docs id (match Client.keepFirst first seen with
      | none => .ok ()
      | some fault => .error fault) w := by
  obtain ⟨hleaving, j, hj, ht, hg, hanswered, hfirst⟩ := h
  refine ⟨⟨hleaving, hclosed⟩, j, hj, ht, hg, called, seen, hanswered, hseen, ?_⟩
  have hself : seen.map (fun _ => ()) = seen := by cases seen <;> rfl
  have hlast := firstFault_concat ((List.range docs.length).map (tell j) ++
    [called.map fun _ => (), tell j (docs.length + 1)]) seen
  rw [hself, List.append_assoc] at hlast
  unfold verdict outcomes
  rw [hfirst, ← hlast]
  rfl

omit hlaw in
/-- A shutdown that has been spoken does not depend on the writer or on the table. -/
theorem Spoken.link {called : Except ClientError Json} {first : Option ClientError} {w : World}
    (h : Spoken down docs id called first w) {k : Connection}
    (hlimit : k.callLimit = w.1.connection.callLimit) :
    Spoken down docs id called first (w.1.setConnection k, w.2) := by
  obtain ⟨hleaving, j, hj, ht, hg, hanswered, hfirst⟩ := h
  refine ⟨hleaving, j, hj, ht, hg, ?_, hfirst⟩
  unfold Answered at hanswered ⊢
  split at hanswered
  · exact hanswered
  · exact hanswered
  · exact ⟨hanswered.1, hanswered.2.1, hanswered.2.2.trans hlimit.symm⟩
  · exact hanswered
  · exact hanswered.elim

omit hlaw in
theorem Parted.notes {result : Except ClientError Unit} {c : Client} {items items' : List Item}
    (h : Parted down docs id result (c, items)) (ht : tolds items' = tolds items)
    (hmem : ∀ i ∈ items, i ∈ items') : Parted down docs id result (c, items') := by
  obtain ⟨hleaving, j, hj, htold, hg, called, seen, hanswered, hseen, hresult⟩ := h
  refine ⟨hleaving, j, hj, ht.trans htold, hg.imp_right fun hg => hg.mono hmem, called, seen, ?_,
    hseen, hresult⟩
  unfold Answered at hanswered ⊢
  split at hanswered
  · exact ⟨ht ▸ hanswered.1, hanswered.2.mono hmem⟩
  · exact ⟨hanswered.1, ht ▸ hanswered.2.1, hanswered.2.2.mono hmem⟩
  · exact ⟨hanswered.1, ht ▸ hanswered.2.1, hanswered.2.2⟩
  · exact hanswered.mono hmem
  · exact hanswered.elim

omit hlaw in
/-- What is so of the request, while the last message is tried. -/
theorem durable_asked (down : Prop) (docs : List String) (id : UInt64) (first : Option ClientError)
    (called : Except ClientError Json) (j : Nat) :
    Durable fun w => Trying down docs.length first (min j docs.length) w ∧
      Answered down "shutdown" id called w :=
  (durable_trying down docs.length first _).and (durable_answered down "shutdown" id called)

omit hlaw in
/-- When everything has been tried the connection is closed. -/
theorem owes_seeOff (grace : Nat) {first : Option ClientError} {called : Except ClientError Json}
    {left : Except ClientError Unit} {S : UInt64 → Prop} :
    Owes (knows line (steady_sofar (goodbye docs id) (docs.length + 1 + 1)
        (durable_told (durable_asked down docs id first called) (docs.length + 1) left))
        (lasting_only S) : Assertion (pact law))
      (Client.onConnection (close grace)) fun seen =>
        (knows line ((steady_spoken down docs id called
          (Client.keepFirst (Client.keepFirst first called) left)).and steady_closed)
          lasting_empty).and (seenOff seen) := by
  refine owes_close (R := knows line (steady_spoken down docs id called
    (Client.keepFirst (Client.keepFirst first called) left)) (lasting_only fun _ => True)) grace
    (fun w hp => ⟨hp.1, (spoken_of_sofar hp.2.1).link ?_, fun _ _ => trivial, fun _ _ => trivial⟩)
    fun w hp => ⟨hp.1, ⟨hp.2.1.link rfl, rfl⟩, rfl⟩
  exact (congrArg Connection.callLimit (enqueue_rest .stop w.1.connection) :)

/-- What a shutdown of an initialized client queues and ends in. -/
theorem owes_farewell {open_ : List (String × Nat)} (hdocs : docs = inOrder open_)
    {S : UInt64 → Prop} (hid : ¬ S id) {φ : World → Prop} (hφ : Steady φ)
    (hinit : ∀ w, φ w → w.1.lifecycle = .initialized ∧ w.1.openDocs = open_ ∧ tolds w.2 = [] ∧
      Upright down w) :
    Owes (knows line hφ (lasting_next S id) : Assertion (pact law)) Client.farewell fun result =>
      knows line (steady_parted down docs id result) lasting_empty := by
  have hlook : Owes (knows line hφ (lasting_next S id) : Assertion (pact law)) (.read fun c => c)
      fun c => (Assertion.fact (c.lifecycle = .initialized)).and (knows line hφ (lasting_next S id)) :=
    owes_look fun w _ hp => ⟨(hinit w hp.2.1).1, hp⟩
  refine hlook.bind fun c => owes_fact fun hc => ?_
  rw [hc]
  have hbegin : Owes (knows line hφ (lasting_next S id) : Assertion (pact law))
      (.act Client.beginShutdown) fun names => (Assertion.fact (names = docs)).and
        (knows line (steady_sofar (goodbye docs id) 0 (durable_trying down 0 none))
          (lasting_next S id)) := by
    refine owes_unsaid fun w _ hp => ?_
    obtain ⟨hlife, hopen, ht, hup⟩ := hinit w hp.2.1
    refine ⟨⟨rfl, rfl, rfl, rfl⟩, by rw [hlife]; exact Nat.le_succ 1, ?_, hp.1, ?_, hp.2.2⟩
    · show inOrder w.1.openDocs = docs
      rw [hopen, hdocs]
    · exact ⟨0, Nat.le_refl 0, ht, .inl rfl, ⟨⟨rfl, rfl⟩, hup⟩, rfl⟩
  refine hbegin.bind fun names => owes_fact fun hnames => ?_
  subst hnames
  refine (owes_closeAll hlaw names [] rfl none).bind fun first => ?_
  refine (owes_ask hlaw (durable_trying down names.length first) (fun _ _ h => h.1.2) hid
    (getElem_goodbye_shutdown names id)).bind fun called => ?_
  refine (owes_tell (durable_asked down names id first called) hlaw
    (getElem_goodbye_exit names id)).bind fun left => ?_
  refine (owes_seeOff (milliseconds c.settings.shutdownTimeout)).bind fun seen => ?_
  have hdone (result : Except ClientError Unit) (hr : result =
      match Client.keepFirst (Client.keepFirst (Client.keepFirst first called) left) seen with
        | none => .ok ()
        | some fault => .error fault) :
      Owes ((knows line ((steady_spoken down names id called
        (Client.keepFirst (Client.keepFirst first called) left)).and steady_closed)
          lasting_empty).and (seenOff seen) : Assertion (pact law)) (.done result) fun result =>
        knows line (steady_parted down names id result) lasting_empty := by
    refine owes_done fun w _ hp => ⟨hp.1.1, ?_, hp.1.2.2⟩
    rw [hr]
    exact parted_of_spoken hp.1.2.1.1 hp.1.2.1.2 hp.2
  split
  next h => exact hdone _ (by rw [h])
  next fault h => exact hdone _ (by rw [h])

end

end Course

end CodeBridge
