import NoreplyGateway.Keyset
import NoreplyGateway.Store.Rows

namespace NoreplyGateway.Store

open Machine

def Status.text : Status → String
  | .queued => "queued"
  | .sending => "sending"
  | .submitted => "submitted"
  | .retry => "retry"
  | .failed => "failed"
  | .uncertain => "uncertain"
  | .cancelled => "cancelled"

/-- The columns of a row that a page shows. -/
structure Listing where
  id : String
  created : Time
  updated : Time
  status : String
  attempts : ℕ
  originalFrom : String
  recipientCount : ℕ
  subject : String
  messageId : String
  nat : Bool
  size : ℕ
  error : String
  nextAttempt : Extended

def Listing.ofRow (r : Row) : Listing where
  id := r.id
  created := r.created
  updated := r.updated
  status := Status.text r.status
  attempts := r.attempts
  originalFrom := r.originalFrom
  recipientCount := r.recipientCount
  subject := r.subject
  messageId := r.messageId
  nat := r.nat
  size := r.size
  error := r.error
  nextAttempt := r.nextAttempt

/-- The order of a page, which lists the rows from the greatest key down. -/
def Listing.key (x : Listing) : Time ×ₗ String := toLex (x.created, x.id)

/-- The conditions of the query. A comparison with a nan, which is bound as
NULL, is not true. -/
def selects (status : String) (before : Option PyFloat) (beforeId : String) (r : Row) : Bool :=
  (status = "" ∨ Status.text r.status = status) ∧
    ∀ b ∈ before, PyFloat.lt r.created b ∨ (r.created : PyFloat) = b ∧ r.id < beforeId

/-- `Store.messages` -/
def messages (status : String) (limit : ℤ) (before : Option PyFloat) (beforeId : String)
    (db : Database) : List Listing :=
  (((db.messages.rows.filter (selects status before beforeId)).insertionSort
    (fun a b ↦ (Listing.ofRow b).key ≤ (Listing.ofRow a).key)).take
      (min (max limit 1) 200).toNat).map Listing.ofRow

/-- A client that reads page after page while the store is in use, with the last
row that it was given. -/
structure Browser where
  session : Session
  before : Option Listing := none
  listed : List Listing := []
  finished : Bool := false

inductive BrowserOp
  | store (op : Op)
  | page (limit : ℤ)

def Browser.page (b : Browser) (limit : ℤ) : List Listing :=
  messages "" limit (b.before.map (fun x ↦ (x.created : PyFloat)))
    ((b.before.map Listing.id).getD "") b.session.db

/-- The client asks for the page behind the last row that it was given, until a
page is empty. -/
def Browser.step (b : Browser) : BrowserOp → Option Browser
  | .store op => (b.session.step op).map (fun t ↦ { b with session := t })
  | .page limit =>
    if b.session.running.isNone then none
    else if b.finished then some b
    else
      match (b.page limit).getLast? with
      | none => some { b with finished := true }
      | some last => some { b with before := some last, listed := b.listed ++ b.page limit }

def BrowserOp.asks : BrowserOp → Bool
  | .page _ => true
  | .store _ => false

def BrowserOp.inserts : BrowserOp → List PreparedMessage
  | .store (.insertBatch _ _ _ batch) => batch
  | _ => []

section Page

variable {db : Database} {limit : ℤ} {b b' : Browser} {x : Listing} {r : Row}

def rowKey (r : Row) : Time ×ₗ String := (Listing.ofRow r).key

theorem keys_nodup (messages : Table Row.id) : (messages.rows.map rowKey).Nodup := by
  have hid : (messages.rows.map rowKey).map (fun k ↦ (ofLex k).2) = messages.rows.map Row.id := by
    rw [List.map_map]
    rfl
  exact List.Nodup.of_map _ (hid ▸ messages.nodup)

def pageLimit (limit : ℤ) : ℕ := (min (max limit 1) 200).toNat

theorem pageLimit_pos (limit : ℤ) : 0 < pageLimit limit := by
  unfold pageLimit
  omega

/-- The two-part cursor is the comparison of the keys. -/
theorem selects_eq (before : Option Listing) :
    selects "" (before.map (fun x ↦ (x.created : PyFloat))) ((before.map Listing.id).getD "") =
      fun r ↦ decide (Keyset.Below (before.map Listing.key) (rowKey r)) := by
  funext r
  cases before with
  | none => simp [selects, Keyset.Below]
  | some x =>
    simp [selects, Keyset.Below, rowKey, Listing.key, Listing.ofRow, Prod.Lex.toLex_lt_toLex,
      PyFloat.lt_num]

theorem page_eq (b : Browser) (limit : ℤ) : b.page limit =
    (Keyset.page rowKey (pageLimit limit) (b.before.map Listing.key)
      b.session.db.messages.rows).map Listing.ofRow := by
  unfold Browser.page messages
  rw [selects_eq]
  rfl

theorem page_keys (b : Browser) (limit : ℤ) : (b.page limit).map Listing.key =
    (Keyset.page rowKey (pageLimit limit) (b.before.map Listing.key)
      b.session.db.messages.rows).map rowKey := by
  rw [page_eq, List.map_map]
  rfl

theorem mem_page (h : x ∈ b.page limit) : ∃ r, x = Listing.ofRow r ∧
    b.session.db.messages.find? r.id = some r ∧
    Keyset.Below (b.before.map Listing.key) (rowKey r) := by
  rw [page_eq] at h
  obtain ⟨r, hr, rfl⟩ := List.mem_map.mp h
  obtain ⟨hmem, hbelow⟩ := Keyset.mem_of_mem_page hr
  exact ⟨r, rfl, Table.find?_of_mem hmem, hbelow⟩

theorem page_ids_nodup (b : Browser) (limit : ℤ) : ((b.page limit).map Listing.id).Nodup := by
  have hkeys : ((b.page limit).map Listing.key).Nodup := by
    rw [page_keys]
    exact List.pairwise_map.mpr
      ((Keyset.page_pairwise (keys_nodup b.session.db.messages) _ _).imp (fun h ↦ h.ne'))
  refine (List.Nodup.of_map _ hkeys).map_on (fun x hx y hy hid ↦ ?_)
  obtain ⟨r, rfl, hr, -⟩ := mem_page hx
  obtain ⟨r', rfl, hr', -⟩ := mem_page hy
  have hid : r.id = r'.id := hid
  rw [hid, hr'] at hr
  obtain rfl := Option.some.inj hr
  rfl

/-- `AdminUI.messages`, with the conversion `float` of the query and the text of
its error. -/
def answer (float : String → Except String PyFloat) (query : List (String × String))
    (db : Database) : Except String (List Listing) :=
  let status := (query.lookup "status").getD ""
  if status ∉ ["", "queued", "sending", "submitted", "retry", "failed", "uncertain",
      "cancelled"] then .error "Unknown message status"
  else do
    let before ← (query.lookup "before").mapM float
    if before = some .nan ∨ before = some (.num ⊤) ∨ before = some (.num ⊥) then
      .error "Invalid pagination cursor"
    else .ok (messages status 100 before ((query.lookup "before_id").getD "") db)

/-- The query that the page sends for the rows behind the last one it shows. -/
def pageQuery (text : Time → String) (before : Option Listing) : List (String × String) :=
  ("status", "") ::
    before.toList.flatMap (fun x ↦ [("before", text x.created), ("before_id", x.id)])

theorem answer_pageQuery {float : String → Except String PyFloat} {text : Time → String}
    (hfloat : ∀ q : Time, float (text q) = .ok q) (b : Browser) :
    answer float (pageQuery text b.before) b.session.db = .ok (b.page 100) := by
  cases hb : b.before with
  | none => simp [answer, pageQuery, Browser.page, hb]
  | some x =>
    have hbefore : (some (text x.created)).mapM float = .ok (some (x.created : PyFloat)) := by
      rw [Option.mapM_some, hfloat]
      rfl
    have hstatus : (pageQuery text (some x)).lookup "status" = some "" := rfl
    have hquery : (pageQuery text (some x)).lookup "before" = some (text x.created) := rfl
    have hid : (pageQuery text (some x)).lookup "before_id" = some x.id := rfl
    have hfinite : ¬(some (x.created : PyFloat) = some .nan ∨ some (x.created : PyFloat) =
        some (.num ⊤) ∨ some (x.created : PyFloat) = some (.num ⊥)) := by simp
    rw [answer, hstatus, hquery, hbefore, hid, Option.getD_some, if_neg (by simp), Browser.page, hb]
    exact if_neg (t := Except.error "Invalid pagination cursor") hfinite

end Page

/-- What one step may do to the client. -/
inductive Browsed (b : Browser) : BrowserOp → Browser → Prop
  | stored {op : Op} {t : Session} (h : b.session.step op = some t) :
      Browsed b (.store op) { b with session := t }
  | idle {limit : ℤ} (hf : b.finished = true) : Browsed b (.page limit) b
  | ended {limit : ℤ} (hf : b.finished = false) (hp : b.page limit = []) :
      Browsed b (.page limit) { b with finished := true }
  | shown {limit : ℤ} {last : Listing} (hf : b.finished = false)
      (hlast : (b.page limit).getLast? = some last) : Browsed b (.page limit)
        { b with
          before := some last
          listed := b.listed ++ b.page limit }

section Steps

variable {b b' : Browser} {op : BrowserOp} {id : String} {since : Time}

theorem browsed_of_step (h : b.step op = some b') : Browsed b op b' := by
  cases op with
  | store op =>
    obtain ⟨t, ht, rfl⟩ := Option.map_eq_some_iff.mp h
    exact .stored ht
  | page limit =>
    simp only [Browser.step] at h
    split_ifs at h with hr hf
    · obtain rfl := Option.some.inj h
      exact .idle hf
    · have hf := eq_false_of_ne_true hf
      split at h
      · next hlast =>
        obtain rfl := Option.some.inj h
        exact .ended hf (List.getLast?_eq_none_iff.mp hlast)
      · next last hlast =>
        obtain rfl := Option.some.inj h
        exact .shown hf hlast

theorem RowChange.created {op : Op} {r r' : Row} (h : RowChange op (some r) (some r')) :
    r'.created = r.created := by
  cases h <;> rfl

/-- What the client was given is in descending order and ends at its cursor. -/
def Browser.InOrder (b : Browser) : Prop :=
  Keyset.Listed (b.before.map Listing.key) (b.listed.map Listing.key)

theorem Browser.InOrder.step (hb : b.InOrder) (h : Browsed b op b') : b'.InOrder := by
  cases h with
  | stored | idle | ended => exact hb
  | @shown limit last hf hlast =>
    have hnext : Keyset.next rowKey (b.before.map Listing.key)
        (Keyset.page rowKey (pageLimit limit) (b.before.map Listing.key)
          b.session.db.messages.rows) = some last.key := by
      rw [Keyset.next, ← List.getLast?_map, ← page_keys, List.getLast?_map, hlast]
      rfl
    have hlisted := hb.page (keys_nodup b.session.db.messages) (pageLimit limit)
    rw [hnext, ← page_keys, ← List.map_append] at hlisted
    exact hlisted

/-- The row is listed, or still to come. Its time of creation is that of the
row listed under its id. -/
structure Browser.Covers (id : String) (since : Time) (b : Browser) : Prop where
  covered : toLex (since, id) ∈ b.listed.map Listing.key ∨
    b.finished = false ∧ Keyset.Below (b.before.map Listing.key) (toLex (since, id))
  kept : ∀ r, b.session.db.messages.find? id = some r → r.created = since
  listed : ∀ x ∈ b.listed, x.id = id → x.created = since

theorem Browser.Covers.step (hb : b.Covers id since)
    (hpresent : (b.session.db.messages.find? id).isSome) (h : Browsed b op b') :
    b'.Covers id since := by
  obtain ⟨r, hr⟩ := Option.isSome_iff_exists.mp hpresent
  obtain rfl := Table.key_of_find? hr
  cases h with
  | @stored op t ht =>
    refine ⟨hb.covered, fun r' hr' ↦ ?_, hb.listed⟩
    have hchange := step_row ht r.id
    rw [hr, hr'] at hchange
    exact hchange.created.trans (hb.kept r hr)
  | idle => exact hb
  | @ended limit hf hp =>
    refine ⟨hb.covered.imp_right (fun hbelow ↦ ?_), hb.kept, hb.listed⟩
    obtain rfl := hb.kept r hr
    rcases Keyset.listed_or_below (keys_nodup b.session.db.messages) (pageLimit_pos limit)
      (Table.mem_of_find? hr) hbelow.2 with hmem | ⟨hne, -⟩
    · have hmem := List.mem_map_of_mem (f := Listing.ofRow) hmem
      rw [← page_eq, hp] at hmem
      cases hmem
    · rw [page_eq, List.map_eq_nil_iff] at hp
      exact absurd hp hne
  | @shown limit last hf hlast =>
    refine ⟨?_, hb.kept, fun x hx hid ↦ ?_⟩
    · rw [List.map_append, List.mem_append]
      rcases hb.covered with hmem | ⟨-, hbelow⟩
      · exact .inl (.inl hmem)
      · obtain rfl := hb.kept r hr
        rcases Keyset.listed_or_below (keys_nodup b.session.db.messages) (pageLimit_pos limit)
          (Table.mem_of_find? hr) hbelow with hmem | ⟨-, hnext⟩
        · rw [page_keys]
          exact .inl (.inr (List.mem_map_of_mem hmem))
        · refine .inr ⟨hf, ?_⟩
          rw [Keyset.next, ← List.getLast?_map, ← page_keys, List.getLast?_map, hlast] at hnext
          exact hnext
    · rcases List.mem_append.mp hx with hx | hx
      · exact hb.listed x hx hid
      · obtain ⟨r', rfl, hr', -⟩ := mem_page hx
        rw [show r'.id = r.id from hid] at hr'
        exact hb.kept r' hr'

/-- No id is listed twice, and the row of a listed id is the one listed. -/
structure Browser.Distinct (b : Browser) : Prop where
  inOrder : b.InOrder
  nodup : (b.listed.map Listing.id).Nodup
  kept : ∀ x ∈ b.listed, ∀ r, b.session.db.messages.find? x.id = some r → r.created = x.created

theorem Browser.Distinct.step (hb : b.Distinct)
    (hfresh : ∀ m ∈ op.inserts, m.id ∉ b.listed.map Listing.id) (h : Browsed b op b') :
    b'.Distinct := by
  refine ⟨hb.inOrder.step h, ?_, ?_⟩
  · cases h with
    | stored | idle | ended => exact hb.nodup
    | @shown limit last hf hlast =>
      rw [List.map_append]
      refine hb.nodup.append (page_ids_nodup b limit) (fun id hid hid' ↦ ?_)
      obtain ⟨x, hx, rfl⟩ := List.mem_map.mp hid
      obtain ⟨y, hy, hxy⟩ := List.mem_map.mp hid'
      obtain ⟨r, rfl, hr, hbelow⟩ := mem_page hy
      have hid : r.id = x.id := hxy
      have hcreated := hb.kept x hx r (hid ▸ hr)
      obtain ⟨c, hc, hle⟩ := hb.inOrder.above x.key (List.mem_map_of_mem hx)
      have hkey : rowKey r = x.key := by
        rw [rowKey, Listing.key, Listing.key, ← hid, ← hcreated]
        rfl
      exact absurd (hkey ▸ hbelow c hc) (not_lt.mpr hle)
  · cases h with
    | @stored op t ht =>
      intro x hx r' hr'
      have hchange := step_row ht x.id
      rw [hr'] at hchange
      generalize hy : b.session.db.messages.find? x.id = y at hchange
      cases y with
      | some r => exact hchange.created.trans (hb.kept x hx r hy)
      | none =>
        cases hchange with
        | inserted hm =>
          have hid := Table.key_of_find? hr'
          exact absurd (List.mem_map.mpr ⟨x, hx, hid.symm⟩) (hfresh _ hm)
    | idle | ended => exact hb.kept
    | @shown limit last hf hlast =>
      intro x hx r' hr'
      rcases List.mem_append.mp hx with hx | hx
      · exact hb.kept x hx r' hr'
      · obtain ⟨r, rfl, hr, -⟩ := mem_page hx
        obtain rfl := Option.some.inj (hr.symm.trans hr')
        rfl

/-- The keys of the table, and those that were listed, are among the given ones. -/
structure Browser.Within (keys : List (Time ×ₗ String)) (b : Browser) : Prop where
  rows : ∀ r ∈ b.session.db.messages.rows, rowKey r ∈ keys
  listed : ∀ x ∈ b.listed, x.key ∈ keys

theorem Browser.Within.step {keys : List (Time ×ₗ String)} (hb : b.Within keys)
    (hnone : op.inserts = []) (h : Browsed b op b') : b'.Within keys := by
  cases h with
  | @stored op t ht =>
    refine ⟨fun r' hr' ↦ ?_, hb.listed⟩
    have hchange := step_row ht r'.id
    rw [Table.find?_of_mem hr'] at hchange
    generalize hy : b.session.db.messages.find? r'.id = y at hchange
    cases y with
    | some r =>
      have hkey : rowKey r' = rowKey r := by
        have hid : r.id = r'.id := Table.key_of_find? hy
        simp only [rowKey, Listing.key, Listing.ofRow, hid, hchange.created]
      rw [hkey]
      exact hb.rows r (Table.mem_of_find? hy)
    | none =>
      cases hchange with
      | @inserted _ _ _ batch m hm =>
        obtain rfl : batch = [] := hnone
        cases hm
  | idle => exact hb
  | ended => exact ⟨hb.rows, hb.listed⟩
  | shown =>
    refine ⟨hb.rows, fun x hx ↦ ?_⟩
    rcases List.mem_append.mp hx with hx | hx
    · exact hb.listed x hx
    · obtain ⟨r, rfl, hr, -⟩ := mem_page hx
      exact hb.rows r (Table.mem_of_find? hr)

/-- Each page but the last one lists a row. -/
theorem pages_le_step {n : ℕ} (hb : b.finished = true ∨ n ≤ b.listed.length)
    (h : Browsed b op b') :
    b'.finished = true ∨ n + (if op.asks then 1 else 0) ≤ b'.listed.length := by
  cases h with
  | stored => exact hb
  | idle hf => exact .inl hf
  | ended => exact .inl rfl
  | @shown limit last hf hlast =>
    have hne : b.page limit ≠ [] := by
      intro hnil
      rw [hnil] at hlast
      cases hlast
    have hpos := List.length_pos_of_ne_nil hne
    have hn := hb.resolve_left (by simp [hf])
    refine .inr ?_
    simp only [BrowserOp.asks, if_true, List.length_append]
    omega

end Steps

section Runs

variable {s : Session} {b : Browser} {ops : List BrowserOp}

theorem Browser.InOrder.of_runs (h : Runs Browser.step { session := s } ops b) : b.InOrder :=
  h.invariant (fun _ _ _ hu hstep ↦ hu.step (browsed_of_step hstep)) Keyset.Listed.nil

/-- A row that is there for each step of a traversal is listed once. -/
theorem listed_once {id : String} (h : Runs Browser.step { session := s } ops b)
    (hpresent : Throughout Browser.step (fun u _ ↦ (u.session.db.messages.find? id).isSome)
      { session := s } ops) (hf : b.finished = true) : (b.listed.map Listing.id).count id = 1 := by
  cases ops with
  | nil =>
    obtain rfl := runs_nil.mp h
    cases hf
  | cons op ops =>
    have hsome := hpresent [] op ops _ rfl (runs_nil.mpr rfl)
    obtain ⟨r, hr⟩ := Option.isSome_iff_exists.mp hsome
    have hstart : Browser.Covers id r.created { session := s } := by
      refine ⟨.inr ⟨rfl, fun c hc ↦ by cases hc⟩, fun r' hr' ↦ ?_, fun x hx ↦ by cases hx⟩
      obtain rfl := Option.some.inj (hr.symm.trans hr')
      rfl
    have hcovers : b.Covers id r.created := h.invariant_of_throughout
      (C := fun u _ ↦ (u.session.db.messages.find? id).isSome)
      (fun _ _ _ hu hc hstep ↦ hu.step hc (browsed_of_step hstep)) hpresent hstart
    have hkey := hcovers.covered.resolve_right (by simp [hf])
    have hcount : (b.listed.map Listing.id).count id =
        (b.listed.map Listing.key).count (toLex (r.created, id)) := by
      rw [List.count_eq_countP, List.count_eq_countP, List.countP_map, List.countP_map]
      refine List.countP_congr (fun x hx ↦ ?_)
      simp only [Function.comp_apply, beq_iff_eq]
      constructor
      · intro hid
        rw [Listing.key, hcovers.listed x hx hid, hid]
      · intro hkey
        exact congrArg (fun k ↦ (ofLex k).2) hkey
    rw [hcount]
    exact List.count_eq_one_of_mem ((Browser.InOrder.of_runs h).descending.imp (fun h ↦ h.ne')) hkey

/-- Without new rows a traversal asks for at most one page more than there are
rows. -/
theorem traversal_ends (h : Runs Browser.step { session := s } ops b)
    (hnone : ∀ op ∈ ops, op.inserts = [])
    (hpages : s.db.messages.rows.length < ops.countP BrowserOp.asks) : b.finished = true := by
  have hwithin : b.Within (s.db.messages.rows.map rowKey) := by
    refine h.trace_invariant (P := fun k u ↦ (∀ op ∈ k, op.inserts = []) →
      u.Within (s.db.messages.rows.map rowKey)) ?_ ?_ hnone
    · intro _
      exact ⟨fun r hr ↦ List.mem_map_of_mem hr, fun x hx ↦ by cases hx⟩
    · intro k u op v _ hu hstep hk
      exact (hu (fun op' hop ↦ hk op' (List.mem_append_left _ hop))).step
        (hk op (List.mem_append_right _ (List.mem_singleton_self _))) (browsed_of_step hstep)
  have hcount : b.finished = true ∨ ops.countP BrowserOp.asks ≤ b.listed.length := by
    refine h.trace_invariant
      (P := fun k u ↦ u.finished = true ∨ k.countP BrowserOp.asks ≤ u.listed.length)
      (.inr (Nat.zero_le _)) (fun k u op v _ hu hstep ↦ ?_)
    rw [List.countP_append, List.countP_singleton]
    exact pages_le_step hu (browsed_of_step hstep)
  have hnodup : (b.listed.map Listing.key).Nodup :=
    (Browser.InOrder.of_runs h).descending.imp (fun h ↦ h.ne')
  have hsubset : b.listed.map Listing.key ⊆ s.db.messages.rows.map rowKey := by
    intro k hk
    obtain ⟨x, hx, rfl⟩ := List.mem_map.mp hk
    exact hwithin.listed x hx
  have hlength := (hnodup.subperm hsubset).length_le
  rw [List.length_map, List.length_map] at hlength
  exact hcount.resolve_right (by omega)

/-- A client that follows the cursor from page to page is given the rows in
descending order, none of them twice, and each row that is there all the time,
whatever else happens to the table; without new rows it comes to the end. -/
theorem pagination_complete (h : Runs Browser.step { session := s } ops b) :
    b.listed.Pairwise (fun x y ↦ y.key < x.key) ∧
    (Throughout Browser.step (fun u op ↦ ∀ m ∈ op.inserts, m.id ∉ u.listed.map Listing.id)
      { session := s } ops → (b.listed.map Listing.id).Nodup) ∧
    (b.finished = true → ∀ id,
      Throughout Browser.step (fun u _ ↦ (u.session.db.messages.find? id).isSome)
        { session := s } ops → (b.listed.map Listing.id).count id = 1) ∧
    ((∀ op ∈ ops, op.inserts = []) →
      s.db.messages.rows.length < ops.countP BrowserOp.asks → b.finished = true) := by
  refine ⟨List.pairwise_map.mp (Browser.InOrder.of_runs h).descending, fun hfresh ↦ ?_,
    fun hf id hpresent ↦ listed_once h hpresent hf, traversal_ends h⟩
  have hdistinct : b.Distinct := h.invariant_of_throughout
    (fun _ _ _ hu hc hstep ↦ hu.step hc (browsed_of_step hstep)) hfresh
    ⟨Keyset.Listed.nil, List.nodup_nil, fun x hx ↦ by cases hx⟩
  exact hdistinct.nodup

end Runs

/-- Three messages accepted at once are read in pages of two rows, while one of
them is cancelled and a fourth one is accepted. -/
def browsedRun : List BrowserOp :=
  [.store (.start sampleConfig 0),
    .store (.insertBatch true 1000000000 1 [sampleMessage "m1" "a@example.com",
      sampleMessage "m2" "b@example.com", sampleMessage "m3" "c@example.com"]),
    .page 2,
    .store (.insertBatch true 1000000000 1 [sampleMessage "m4" "d@example.com"]),
    .store (.action "m1" "cancel" false ⟨2, 2, 2⟩),
    .page 2,
    .page 2]

theorem pagination_complete_sample : ∃ b, Runs Browser.step { session := {} } browsedRun b ∧
    b.finished = true ∧ b.listed.map Listing.id = ["m3", "m2", "m1"] ∧
    b.listed.Pairwise (fun x y ↦ y.key < x.key) := by
  have hrun : (run Browser.step browsedRun { session := {} }).any (fun b ↦
      b.finished = true ∧ b.listed.map Listing.id = ["m3", "m2", "m1"]) := by decide +kernel
  obtain ⟨b, hb, hlisted⟩ := (Option.any_eq_true ..).mp hrun
  obtain ⟨hf, hids⟩ := of_decide_eq_true hlisted
  exact ⟨b, hb, hf, hids, (pagination_complete hb).1⟩

end NoreplyGateway.Store
