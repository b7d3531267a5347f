import Mathlib.Data.List.Chain
import PaymentGateway.System.Settlement

/-!
# The event log

Every service that changes a status appends an event, under a sequence number it counts itself
and with the statuses as it read them. A `Trace` is what the events of one invoice should be:
numbered 1, 2, …, each leaving the status the one before entered, the last one entering what is
stored, and each along an edge of the transition table that allows the actor it names.

**Theorem (`payment_events_trace`).** In every committed state of every run of the monitor, the
sweep, the expiry on read and the environment, the events of each invoice are a trace.

An effect appends what it writes: `Announced.trace` takes a trace through the events of a list of
status writes that start at the stored status, and leaves the events of the other invoices alone
(`Announced.other`). A new invoice begins with two events, and no event names an invoice before it
exists (`Traced.known`), which is why its numbers start at 1.
-/

namespace PaymentGateway

open Keyed Fallible Transactional MonitorService

variable {may : Right → Prop} {db db' : Db}

/-- The events of an invoice, oldest first. -/
def eventsOf (events : Db.Events) (invoiceId : String) : List PaymentEvent :=
  events.rows.filter fun e => e.invoiceId = invoiceId

/-- The actor of the transition table that the actor column of an event stands for. -/
def eventActor (name : String) : Option TransitionActor :=
  if name = "monitor" then some .monitor
  else if name = "system" ∨ name = "system:worker" then some .system
  else none

/-- A change of status goes along an edge that its actor may take. -/
def EdgeAllowed (e : PaymentEvent) : Prop :=
  ∀ source, e.fromStatus = some source → ∃ actor, eventActor e.actor = some actor ∧
    ∃ rule ∈ transitions source, rule.target = e.toStatus ∧ actor ∈ rule.actors

/-- The events of an invoice in this status. -/
structure Trace (events : List PaymentEvent) (status : InvoiceStatus) : Prop where
  sequences : events.map (·.sequence) = List.range' 1 events.length
  linked : events.IsChain fun e next => next.fromStatus = some e.toStatus
  last : events.getLast?.map (·.toStatus) = some status
  allowed : ∀ e ∈ events, EdgeAllowed e

theorem rule_of_isActorAllowed {source target : InvoiceStatus} {actor : TransitionActor}
    (h : isActorAllowed source target actor = true) :
    ∃ rule ∈ transitions source, rule.target = target ∧ actor ∈ rule.actors := by
  unfold isActorAllowed at h
  split at h
  · next rule hrule =>
    exact ⟨rule, List.mem_of_find?_eq_some hrule, by simpa using List.find?_some hrule,
      by simpa using h⟩
  · cases h

/-! ## One more event -/

theorem Trace.append {events : List PaymentEvent} {status : InvoiceStatus} {e : PaymentEvent}
    (h : Trace events status) (hseq : e.sequence = events.length + 1)
    (hfrom : e.fromStatus = some status) (hallowed : EdgeAllowed e) :
    Trace (events ++ [e]) e.toStatus := by
  refine ⟨?_, ?_, by simp, ?_⟩
  · rw [List.map_append, h.sequences, List.length_append, List.length_singleton,
      List.range'_concat, List.map_singleton, hseq]
    simp [Nat.add_comm]
  · refine h.linked.append (List.isChain_singleton e) fun x hx y hy => ?_
    obtain rfl : y = e := by simpa [eq_comm] using hy
    have hlast := h.last
    rw [Option.mem_def.1 hx] at hlast
    rw [hfrom, ← hlast]
    rfl
  · intro x hx
    rcases List.mem_append.1 hx with hx | hx
    · exact h.allowed x hx
    · rw [List.mem_singleton.1 hx]
      exact hallowed

theorem eventsOf_insert {events : Db.Events} {e : PaymentEvent}
    {hfree : events.find? (e.invoiceId, e.sequence) = none} (id : String) :
    eventsOf (events.insert e hfree) id =
      if e.invoiceId = id then eventsOf events id ++ [e] else eventsOf events id := by
  unfold eventsOf
  rw [Table.rows_insert, List.filter_append]
  split_ifs with hid <;> simp [hid]

/-- A reported write adds one event to the trace of its invoice. -/
theorem Reported.trace {old new : Db.Events} {w : StatusWrite} {name : String}
    (h : Db.Reported old w name new) (hactor : eventActor name = some w.writer)
    (hallowed : isActorAllowed w.stored w.written w.writer = true)
    (ht : Trace (eventsOf old w.invoiceId) w.stored) :
    Trace (eventsOf new w.invoiceId) w.written := by
  obtain ⟨e, hfree, hid, hseq, hfrom, hto, hname, rfl⟩ := h
  rw [eventsOf_insert, if_pos hid, ← hto]
  refine ht.append hseq hfrom fun source hsource => ⟨w.writer, hname ▸ hactor, ?_⟩
  obtain rfl : source = w.stored := Option.some.inj (hsource.symm.trans hfrom)
  rw [hto]
  exact rule_of_isActorAllowed hallowed

theorem Reported.other {old new : Db.Events} {w : StatusWrite} {name id : String}
    (h : Db.Reported old w name new) (hne : w.invoiceId ≠ id) :
    eventsOf new id = eventsOf old id := by
  obtain ⟨e, hfree, hid, -, -, -, -, rfl⟩ := h
  rw [eventsOf_insert, if_neg (hid ▸ hne)]

/-- Announced writes that follow the stored status take its trace along. -/
theorem Announced.trace {ev ev' : Db.Events} {wh wh' : Db.Webhooks} {ws : List StatusWrite}
    {id name : String} {source target : InvoiceStatus}
    (h : Db.Announced name ev wh ws ev' wh') (hpath : Db.StatusPath id source ws target)
    (hactor : ∀ w ∈ ws, eventActor name = some w.writer)
    (ht : Trace (eventsOf ev id) source) : Trace (eventsOf ev' id) target := by
  induction h generalizing source with
  | nil ev wh =>
    cases hpath
    exact ht
  | cons hreported _ _ ih =>
    obtain - | ⟨hid, hallowed, hrest⟩ := hpath
    subst hid
    exact ih hrest (fun w hw => hactor w (List.mem_cons_of_mem _ hw))
      (Reported.trace hreported (hactor _ List.mem_cons_self) hallowed ht)

theorem Announced.other {ev ev' : Db.Events} {wh wh' : Db.Webhooks} {ws : List StatusWrite}
    {id name : String} (h : Db.Announced name ev wh ws ev' wh')
    (hne : ∀ w ∈ ws, w.invoiceId ≠ id) : eventsOf ev' id = eventsOf ev id := by
  induction h with
  | nil ev wh => rfl
  | cons hreported _ _ ih =>
    rw [ih fun w hw => hne w (List.mem_cons_of_mem _ hw),
      Reported.other hreported (hne _ List.mem_cons_self)]

theorem Announced.reported {ev ev' : Db.Events} {wh wh' : Db.Webhooks} {w : StatusWrite}
    {name : String} (h : Db.Announced name ev wh [w] ev' wh') : Db.Reported ev w name ev' := by
  obtain - | ⟨hreported, -, hrest⟩ := h
  cases hrest
  exact hreported

/-! ## The invariant -/

/-- The events of each invoice are a trace, and no event precedes its invoice. -/
structure Traced (db : Db) : Prop where
  known : ∀ id, db.invoices.find? id = none → eventsOf db.events id = []
  trace : ∀ i ∈ db.invoices, Trace (eventsOf db.events i.id) i.status

theorem traced_empty : Traced Db.empty :=
  ⟨fun _ _ => rfl, fun i hi => absurd hi (Table.not_mem_empty i)⟩

theorem Traced.congr (h : Traced db) (hinvoices : db'.invoices = db.invoices)
    (hevents : db'.events = db.events) : Traced db' := by
  refine ⟨?_, ?_⟩
  · rw [hinvoices, hevents]
    exact h.known
  · rw [hinvoices, hevents]
    exact h.trace

/-- Writes of one invoice that extend its trace and add no event to any other. -/
theorem Traced.write (h : Traced db) {stored : Invoice} {f : Invoice → Invoice}
    (hf : ∀ r, (f r).id = r.id) {events : Db.Events}
    (hfind : db.invoices.find? stored.id = some stored)
    (htrace : Trace (eventsOf events stored.id) (f stored).status)
    (hother : ∀ id, id ≠ stored.id → eventsOf events id = eventsOf db.events id)
    (hinvoices : db'.invoices = db.invoices.modify stored.id f hf)
    (hevents : db'.events = events) : Traced db' := by
  refine ⟨fun id hid => ?_, fun i hi => ?_⟩
  · rw [hinvoices, Table.find?_modify_eq_none] at hid
    have hne : id ≠ stored.id := by
      intro heq
      rw [heq, hfind] at hid
      cases hid
    rw [hevents, hother id hne, h.known id hid]
  · rw [hinvoices] at hi
    rw [hevents]
    rcases (Table.mem_modify_of_find? hfind).1 hi with rfl | ⟨hi, hne⟩
    · rw [hf]
      exact htrace
    · rw [hother i.id hne]
      exact h.trace i hi

theorem Traced.withStatus (h : Traced db) {stored : Invoice} {target : InvoiceStatus}
    {writer : TransitionActor} {data : InvoiceData} {name : String}
    {events : Db.Events} {webhooks : Db.Webhooks}
    (hfind : db.invoices.find? stored.id = some stored)
    (hallowed : isActorAllowed stored.status target writer = true)
    (hreported : Db.Reported db.events ⟨stored.id, stored.status, target, writer⟩ name events)
    (hactor : eventActor name = some writer) :
    Traced (db.withStatus stored target writer data events webhooks) := by
  refine h.write (fun r => r.id_update _) hfind ?_ ?_ rfl rfl
  · rw [Invoice.status_update]
    exact Reported.trace hreported hactor hallowed (h.trace stored (Table.mem_of_find? hfind))
  · intro id hne
    exact Reported.other hreported hne.symm

/-- A new invoice starts its trace. -/
theorem Opened.trace {old new : Db.Events} {id : String} (h : Opened old id new)
    (hnone : eventsOf old id = []) : Trace (eventsOf new id) .pending := by
  obtain ⟨first, second, h1, h2, ⟨hid1, hseq1, hfrom1, hto1, -⟩,
    ⟨hid2, hseq2, hfrom2, hto2, hname2⟩, rfl⟩ := h
  rw [eventsOf_insert, if_pos hid2, eventsOf_insert, if_pos hid1, hnone, List.nil_append, ← hto2]
  have hopen : Trace [first] .created := by
    refine ⟨by simp [hseq1], List.isChain_singleton _, by simp [hto1], ?_⟩
    intro e he source hsource
    rw [List.mem_singleton.1 he, hfrom1] at hsource
    cases hsource
  refine hopen.append hseq2 hfrom2 fun source hsource => ⟨.system, by rw [hname2]; rfl, ?_⟩
  obtain rfl : source = .created := Option.some.inj (hsource.symm.trans hfrom2)
  rw [hto2]
  exact rule_of_isActorAllowed rfl

theorem Opened.other {old new : Db.Events} {id other : String} (h : Opened old id new)
    (hne : id ≠ other) : eventsOf new other = eventsOf old other := by
  obtain ⟨first, second, h1, h2, ⟨hid1, -⟩, ⟨hid2, -⟩, rfl⟩ := h
  rw [eventsOf_insert, if_neg (hid2 ▸ hne), eventsOf_insert, if_neg (hid1 ▸ hne)]

/-- **Every effect but those of people extends the traces.** -/
theorem Effect.traced (h : Effect may db db') (hcancel : ¬ may .cancel) (hedge : ¬ may .takeEdge)
    (ht : Traced db) : Traced db' := by
  cases h with
  | record _ _ _ _ =>
    obtain ⟨transfers, hupsert⟩ := Db.upsertTransfer_eq db _
    rw [hupsert]
    exact ht.congr rfl rfl
  | recordMove _ _ _ hinvoice _ hallowed _ hsaid =>
    obtain ⟨transfers, hupsert⟩ := Db.upsertTransfer_eq db _
    rw [hupsert]
    have hrows : Traced { db with transfers } := ht.congr rfl rfl
    exact hrows.withStatus (find?_of_invoice hinvoice).1 hallowed (Announced.reported hsaid) rfl
  | confirming _ hfind hallowed hsaid =>
    exact ht.withStatus hfind hallowed (Announced.reported hsaid) rfl
  | settle _ hsettle hallowed _ hsaid =>
    exact ht.withStatus hsettle.invoice_found hallowed (Announced.reported hsaid) rfl
  | @accept _ invoice _ _ _ haccept =>
    obtain ⟨now, db1, hpaid, hcredits⟩ := haccept.credits
    obtain ⟨f, hf, writes, events, webhooks, _, _, _, hrow, ⟨hpath, hsaid, hwriter⟩, rfl⟩ :=
      accept_frame hpaid hcredits
    have hfind := haccept.settleable.invoice_found
    refine ht.write hf hfind ?_ ?_ rfl rfl
    · rw [(hrow invoice).2.1]
      refine Announced.trace hsaid hpath ?_ (ht.trace invoice (Table.mem_of_find? hfind))
      intro w hw
      rw [hwriter w hw]
      rfl
    · intro id hne
      exact Announced.other hsaid fun w hw => (hpath.mem w hw).1 ▸ hne.symm
  | revert _ hfind hallowed _ hreported _ =>
    exact ht.withStatus hfind hallowed hreported rfl
  | @flag _ _ invoice _ events webhooks _ _ _ hfind hallowed hsaid =>
    have hmoved : Traced (db.withStatus invoice .reconciliationRequired .monitor
        { bumpVersion := true } events webhooks) :=
      ht.withStatus hfind hallowed (Announced.reported hsaid) rfl
    exact hmoved.congr rfl rfl
  | expire _ hfind hallowed _ hsaid =>
    obtain ⟨name, hname, hsaid⟩ := hsaid
    refine ht.withStatus hfind hallowed (Announced.reported hsaid) ?_
    rcases hname with rfl | rfl <;> rfl
  | @create _ invoice _ _ _ _ _ hfree hstatus _ _ _ hopened _ =>
    refine ⟨fun id hid => ?_, fun i hi => ?_⟩
    · have hid' : (db.invoices.insert invoice hfree).find? id = none := hid
      rw [Table.find?_insert] at hid'
      split_ifs at hid' with hne
      rw [Opened.other hopened hne]
      exact ht.known id hid'
    · have hi' : i ∈ db.invoices.insert invoice hfree := hi
      rcases Table.mem_insert.1 hi' with hi | rfl
      · have hne : invoice.id ≠ i.id := fun heq => Table.find?_eq_none.1 hfree i hi heq.symm
        show Trace (eventsOf _ i.id) i.status
        rw [Opened.other hopened hne]
        exact ht.trace i hi
      · rw [hstatus]
        exact Opened.trace hopened (ht.known i.id hfree)
  | cancel hmay _ _ _ _ => exact absurd hmay hcancel
  | edge hmay _ _ _ _ _ => exact absurd hmay hedge
  | _ => exact ht.congr rfl rfl

/-- **The payment events of each invoice are a faithful trace.** -/
theorem payment_events_trace
    (h : gateway.Reachable Operation.Automatic (fun _ _ => True) Db.empty db) :
    ∀ i ∈ db.invoices, Trace (eventsOf db.events i.id) i.status := by
  have hkind : ∀ op db, Operation.Automatic op → ∀ t, Except.ok t ∈ gateway.script op db →
      t.Automatic := fun op db hop t ht => automatic_script db hop t ht
  have hstep : ∀ (t : Transaction) (a b : Db), t.Automatic → Traced a →
      Effect t.rights a b → Traced b := by
    intro t a b hauto ha hab
    obtain ⟨hcancel, hedge⟩ := hauto.rights
    exact hab.traced hcancel hedge ha
  exact (Effects.run_invariant Traced h hkind traced_empty hstep).trace

/-- The events of a payment that confirms. -/
theorem payment_events_trace_shop :
    (eventsOf (Shop.after Shop.payment).events "i").map
        (fun e => (e.sequence, e.fromStatus, e.toStatus, e.actor)) =
      [(1, none, .created, "system"), (2, some .created, .pending, "system"),
        (3, some .pending, .detected, "monitor"), (4, some .detected, .confirming, "monitor"),
        (5, some .confirming, .paid, "monitor")] ∧
    ∀ i ∈ (Shop.after Shop.payment).invoices,
      Trace (eventsOf (Shop.after Shop.payment).events i.id) i.status := by
  have hops : ∀ op ∈ Shop.opening ++ Shop.payment, op.Automatic := by decide
  refine ⟨by decide +kernel, payment_events_trace ?_⟩
  exact Shop.after_reachable Shop.payment hops (Machine.allMeet_true _ _)

end PaymentGateway
