import NoreplyGateway.Config
import NoreplyGateway.Lines

namespace NoreplyGateway.Smtp

open Lines

/-- The exceptions that end a connection. -/
inductive ConnectionEnd
  | timeoutError
  | valueError
  | connectionError
  | other (name : String)
  deriving DecidableEq

/-- The end of DATA, as `readline` returns it. -/
def dot : Octets := [46, 13, 10]

/-- The octets of a line before its LF, or of a last line without one, are more
than the limit of the reader. -/
def overLimit (line : Octets) : Bool :=
  65536 < if line.getLast? = some 10 then line.length - 1 else line.length

structure DataState where
  content : Octets := []
  failure : String := ""

/-- One line of DATA that does not end it. `others` is what the other
connections hold in `buffered`. -/
def dataLine (config : SMTPConfig) (others : ℕ) (d : DataState) (line : Octets) : DataState :=
  let inner := line.take (line.length - 2)
  let failure₁ := if ¬[13, 10] <:+ line ∨ line.length > 1001 ∨ 13 ∈ inner ∨ 10 ∈ inner then
    "554 5.6.0 DATA requires CRLF and lines of at most 1000 octets" else d.failure
  let unstuffed := if line.head? = some 46 then line.tail else line
  let failure₂ := if unstuffed.length > 1000 then "554 5.6.0 DATA line is too long" else failure₁
  if failure₂ ≠ "" then { d with failure := failure₂ }
  else if d.content.length + unstuffed.length > config.maxMessageBytes then
    { d with failure := "552 5.3.4 Message too large" }
  else if others + d.content.length + unstuffed.length > config.maxBufferBytes then
    { d with failure := "452 4.3.1 Message-buffer capacity exceeded" }
  else { content := d.content ++ unstuffed, failure := "" }

/-- The reading loop of `_data`, over the lines that are left in the stream. A
turn is the wait for one line: it raises, or finds what the other connections
hold. At the end of the stream `readline` returns nothing. -/
def dataLoop (config : SMTPConfig) (turns : ℕ → Except ConnectionEnd ℕ) (d : DataState) :
    List Octets → Except ConnectionEnd (DataState × List Octets)
  | [] =>
    match turns 0 with
    | .error e => .error e
    | .ok _ => .error .connectionError
  | line :: rest =>
    match turns 0 with
    | .error e => .error e
    | .ok others =>
      if overLimit line then .error .valueError
      else if line = dot then .ok (d, rest)
      else dataLoop config (fun n ↦ turns (n + 1)) (dataLine config others d line) rest

/-- `_data`: the reply, and the lines that are left. `deliver` stands for
preparing and submitting the message; sending the reply may raise as well. -/
def data (config : SMTPConfig) (turns : ℕ → Except ConnectionEnd ℕ)
    (deliver : Octets → Except ConnectionEnd String) (reply : String → Except ConnectionEnd Unit)
    (stream : List Octets) : Except ConnectionEnd (String × List Octets) :=
  match dataLoop config turns {} stream with
  | .error e => .error e
  | .ok (d, rest) =>
    match if d.failure ≠ "" then .ok d.failure else deliver d.content with
    | .error e => .error e
    | .ok text =>
      match reply text with
      | .error e => .error e
      | .ok () => .ok (text, rest)

/-- The octets that `_connection` goes on to read as commands after DATA. There
are none when an exception closes the connection. -/
def commandStream (config : SMTPConfig) (turns : ℕ → Except ConnectionEnd ℕ)
    (deliver : Octets → Except ConnectionEnd String) (reply : String → Except ConnectionEnd Unit)
    (stream : Octets) : Option Octets :=
  match data config turns deliver reply (lines 10 stream) with
  | .error _ => none
  | .ok (_, rest) => some rest.flatten

/-- The octets end with CRLF, dot, CRLF, where the DATA command's own CRLF
counts. -/
def Ends (body : Octets) : Prop := [13, 10] ++ dot <:+ [13, 10] ++ body

/-- They do so for the first time. -/
def EndsFirst (body : Octets) : Prop := Ends body ∧ ∀ p, p <+: body → Ends p → p = body

/-- The first line that is a lone dot comes first or after a line that ends in
CRLF, unless a line over the limit closes the connection before it. -/
def DotAfterCRLF (stream : Octets) : Prop :=
  ∀ before after prev, lines 10 stream = before ++ dot :: after → dot ∉ before →
    (∀ line ∈ before, overLimit line = false) → before.getLast? = some prev → [13, 10] <:+ prev

section Loop

variable {config : SMTPConfig} {turns : ℕ → Except ConnectionEnd ℕ} {d d' : DataState}
  {stream before after rest : List Octets}

/-- The loop ends at the first lone dot only. -/
theorem dataLoop_ok (h : dataLoop config turns d stream = .ok (d', rest)) :
    ∃ before, stream = before ++ dot :: rest ∧ dot ∉ before ∧
      ∀ line ∈ before, overLimit line = false := by
  induction stream generalizing turns d with
  | nil =>
    rw [dataLoop] at h
    split at h <;> cases h
  | cons line stream ih =>
    rw [dataLoop] at h
    split at h
    · cases h
    · split_ifs at h with hl hd
      · obtain ⟨-, rfl⟩ := Prod.mk.inj (Except.ok.inj h)
        exact ⟨[], by rw [hd]; rfl, List.not_mem_nil, by simp⟩
      · obtain ⟨before, rfl, hb, hlimit⟩ := ih h
        refine ⟨line :: before, rfl, ?_, ?_⟩
        · exact fun hm ↦ (List.mem_cons.mp hm).elim (fun e ↦ hd e.symm) hb
        · exact List.forall_mem_cons.mpr ⟨by simpa using hl, hlimit⟩

/-- It gets there when no wait raises and no line is over the limit. -/
theorem dataLoop_reaches (config : SMTPConfig) (d : DataState) (after : List Octets)
    (hd : dot ∉ before) (hl : ∀ line ∈ before, overLimit line = false) :
    ∃ d', dataLoop config (fun _ ↦ .ok 0) d (before ++ dot :: after) = .ok (d', after) := by
  have hdot : overLimit dot = false := by decide
  induction before generalizing d with
  | nil => exact ⟨d, by simp [dataLoop, hdot]⟩
  | cons line before ih =>
    obtain ⟨hne, hd⟩ := List.ne_and_not_mem_of_not_mem_cons hd
    obtain ⟨hline, hl⟩ := List.forall_mem_cons.mp hl
    obtain ⟨d', h⟩ := ih (dataLine config 0 d line) hd hl
    exact ⟨d', by simpa [dataLoop, hline, hne.symm] using h⟩

end Loop

section Boundary

theorem crlf_suffix {l : Octets} : [13, 10] <:+ l ++ [10] ↔ l.getLast? = some 13 := by
  constructor
  · rintro ⟨t, h⟩
    have hl : t ++ [13] = l :=
      List.append_cancel_right ((List.append_assoc t [13] [10]).trans h)
    rw [← hl, List.getLast?_concat]
  · intro h
    obtain ⟨t, rfl⟩ := List.getLast?_eq_some_iff.mp h
    exact ⟨t, by simp⟩

theorem ends_append_dot {l : Octets} : Ends (l ++ dot) ↔ [13, 10] <:+ [13, 10] ++ l := by
  rw [Ends, ← List.append_assoc]
  constructor
  · rintro ⟨t, h⟩
    exact ⟨t, List.append_cancel_right ((List.append_assoc t [13, 10] dot).trans h)⟩
  · rintro ⟨t, h⟩
    exact ⟨t, by rw [← h, List.append_assoc]⟩

theorem dot_suffix_of_ends {p : Octets} (h : Ends p) : dot <:+ p := by
  have hlen := h.length_le
  simp only [dot, List.length_append, List.length_cons, List.length_nil] at hlen
  refine List.suffix_of_suffix_length_le ((List.suffix_append _ _).trans h)
    (List.suffix_append [13, 10] p) ?_
  simp only [dot, List.length_cons, List.length_nil]
  omega

variable {stream : Octets} {before after : List Octets}

/-- What is read up to a lone dot ends as DATA ends if and only if the line
before the dot, when there is one, ends in CRLF. -/
theorem ends_lines (h : lines 10 stream = before ++ dot :: after) :
    Ends (before ++ [dot]).flatten ↔ ∀ prev, before.getLast? = some prev → [13, 10] <:+ prev := by
  rw [List.flatten_append, List.flatten_singleton, ends_append_dot]
  rcases List.eq_nil_or_concat' before with rfl | ⟨init, prev, rfl⟩
  · simp
  · have hends : ∀ line ∈ init ++ [prev], line.getLast? = some 10 :=
      fun line ↦ getLast?_of_mem_lines h (by simp)
    obtain ⟨inner, rfl⟩ := List.getLast?_eq_some_iff.mp
      (hends prev (List.mem_append_right _ (List.mem_singleton_self _)))
    have hpre : ([13, 10] ++ init.flatten).getLast? = some 10 := by
      rw [← List.flatten_cons]
      refine getLast?_flatten ?_ (by simp)
      exact List.forall_mem_cons.mpr ⟨rfl, fun line hm ↦ hends line (List.mem_append_left _ hm)⟩
    rw [List.flatten_append, List.flatten_singleton, ← List.append_assoc, ← List.append_assoc,
      crlf_suffix, List.getLast?_append, hpre]
    simp only [List.getLast?_concat, Option.some.injEq, forall_eq', crlf_suffix]
    cases inner.getLast? <;> simp

theorem endsFirst_lines (h : lines 10 stream = before ++ dot :: after) (hd : dot ∉ before)
    (he : Ends (before ++ [dot]).flatten) : EndsFirst (before ++ [dot]).flatten := by
  refine ⟨he, fun p hp hends ↦ hp.eq_of_length_le ?_⟩
  obtain ⟨q, rfl⟩ := dot_suffix_of_ends hends
  -- the stream splits at the end of `q` and at the dot behind it
  have hq : q = [] ∨ q.getLast? = some 10 := by
    rcases List.eq_nil_or_concat' q with rfl | ⟨q', b, rfl⟩
    · exact .inl rfl
    · obtain ⟨t, ht⟩ := ends_append_dot.mp hends
      have hlast := congrArg List.getLast? ht
      simp only [List.getLast?_append] at hlast
      exact .inr (by simpa using hlast.symm)
  have hstream : (before ++ [dot]).flatten ++ after.flatten = stream := by
    rw [← List.flatten_append, List.append_assoc, List.singleton_append, ← h, flatten_lines]
  obtain ⟨tail, htail⟩ := hp
  have hlines : lines 10 stream = lines 10 q ++ dot :: lines 10 (tail ++ after.flatten) := by
    rw [← hstream, ← htail, List.append_assoc, List.append_assoc, lines_append hq,
      lines_append (.inr rfl)]
    rfl
  have hprefix := prefix_of_first (hlines.symm.trans h) hd
  obtain ⟨more, hmore⟩ := hprefix
  have hqlen := congrArg (fun l ↦ l.flatten.length) hmore
  simp only [List.flatten_append, flatten_lines, List.length_append] at hqlen ⊢
  simp only [List.flatten_singleton]
  omega

end Boundary

/-- DATA ends where it should on a stream, whatever happens to the content,
exactly when the first lone dot that is read follows a CRLF. -/
theorem data_boundary (config : SMTPConfig) (stream : Octets) :
    (∀ turns deliver reply rest, commandStream config turns deliver reply stream = some rest →
      ∃ body, stream = body ++ rest ∧ EndsFirst body) ↔ DotAfterCRLF stream := by
  have hsplit : ∀ before after, lines 10 stream = before ++ dot :: after →
      stream = (before ++ [dot]).flatten ++ after.flatten := by
    intro before after h
    rw [← List.flatten_append, List.append_assoc, List.singleton_append, ← h, flatten_lines]
  constructor
  · intro hc before after prev h hd hl
    obtain ⟨d', hloop⟩ := dataLoop_reaches config {} after hd hl
    obtain ⟨body, hbody, hends, -⟩ := hc (fun _ ↦ .ok 0) (fun _ ↦ .ok "") (fun _ ↦ .ok ())
      after.flatten (by
        rw [commandStream, data, h, hloop]
        by_cases hf : d'.failure = "" <;> simp [hf])
    rw [hsplit before after h] at hbody
    obtain rfl := List.append_cancel_right hbody
    exact (ends_lines h).mp hends prev
  · intro hdot turns deliver reply rest hc
    unfold commandStream data at hc
    split at hc
    · cases hc
    next text lines' hdata =>
      split at hdata
      · cases hdata
      next d lines'' hloop =>
        obtain ⟨before, h, hd, hl⟩ := dataLoop_ok hloop
        have hrest : rest = lines''.flatten := by
          split at hdata
          · cases hdata
          · split at hdata
            · cases hdata
            · cases hdata
              exact (Option.some.inj hc).symm
        rw [hrest]
        exact ⟨_, hsplit before lines'' h,
          endsFirst_lines h hd ((ends_lines h).mpr (fun prev ↦ hdot before lines'' prev h hd hl))⟩

/-- A dot after a bare LF ends DATA, and what follows is read as commands. -/
theorem bare_lf_dot_ends_data :
    commandStream {} (fun _ ↦ .ok 0) (fun _ ↦ .ok "250") (fun _ ↦ .ok ())
        (ascii "Hello\n.\r\nMAIL FROM:<x@example.net>\r\n") =
      some (ascii "MAIL FROM:<x@example.net>\r\n") ∧
    ¬∃ body, ascii "Hello\n.\r\nMAIL FROM:<x@example.net>\r\n" =
      body ++ ascii "MAIL FROM:<x@example.net>\r\n" ∧ EndsFirst body := by
  refine ⟨by decide +kernel, ?_⟩
  rintro ⟨body, hbody, hends, -⟩
  have hsplit : ascii "Hello\n.\r\nMAIL FROM:<x@example.net>\r\n" =
      ascii "Hello\n.\r\n" ++ ascii "MAIL FROM:<x@example.net>\r\n" := by decide +kernel
  obtain rfl := List.append_cancel_right (hsplit.symm.trans hbody)
  revert hends
  unfold Ends
  decide +kernel

end NoreplyGateway.Smtp
