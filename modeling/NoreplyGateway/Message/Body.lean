import NoreplyGateway.Message.Sender
import NoreplyGateway.Smtp.Data
import NoreplyGateway.Upstream.Payload

namespace NoreplyGateway

open Fields Lines Outcome Smtp Upstream

/-- A line of a message: CRLF at its end only, and no more than 1000 octets. -/
def TextLine (line : Octets) : Prop :=
  ∃ inner, line = inner ++ [13, 10] ∧ 13 ∉ inner ∧ 10 ∉ inner ∧ line.length ≤ 1000

/-- What a client sends for a line. -/
def stuff (line : Octets) : Octets := if line.head? = some 46 then 46 :: line else line

section Lines

variable {line : Octets}

theorem lines_single {inner : Octets} (h : 10 ∉ inner) : lines 10 (inner ++ [10]) = [inner ++ [10]] := by
  induction inner with
  | nil => rfl
  | cons b inner ih =>
    obtain ⟨hb, hinner⟩ := List.ne_and_not_mem_of_not_mem_cons h
    rw [List.cons_append, lines, if_neg hb.symm, ih hinner]

theorem lines_flatten {ls : List Octets} {rest : Octets}
    (h : ∀ line ∈ ls, ∃ inner, line = inner ++ [10] ∧ 10 ∉ inner) :
    lines 10 (ls.flatten ++ rest) = ls ++ lines 10 rest := by
  induction ls with
  | nil => rfl
  | cons line ls ih =>
    obtain ⟨⟨inner, rfl, hinner⟩, hls⟩ := List.forall_mem_cons.mp h
    rw [List.flatten_cons, List.append_assoc, lines_append (.inr (by simp)), lines_single hinner,
      ih hls]
    rfl

/-- A line with CRLF at its end only passes every check of DATA if what is left of
it fits. -/
theorem dataLine_fits {config : SMTPConfig} {others : ℕ} {content inner unstuffed : Octets}
    (hcr : 13 ∉ inner) (hlf : 10 ∉ inner) (hlength : (inner ++ [13, 10]).length ≤ 1001)
    (hdot : (if (inner ++ [13, 10]).head? = some 46 then (inner ++ [13, 10]).tail
      else inner ++ [13, 10]) = unstuffed) (hunstuffed : unstuffed.length ≤ 1000)
    (hsize : content.length + unstuffed.length ≤ config.maxMessageBytes)
    (hbuffer : others + content.length + unstuffed.length ≤ config.maxBufferBytes) :
    dataLine config others { content := content } (inner ++ [13, 10]) =
      { content := content ++ unstuffed } := by
  have htake : (inner ++ [13, 10]).take ((inner ++ [13, 10]).length - 2) = inner := by simp
  have hframed : ¬(¬[13, 10] <:+ inner ++ [13, 10] ∨ (inner ++ [13, 10]).length > 1001 ∨
      13 ∈ inner ∨ 10 ∈ inner) := by
    rintro (hends | hlong | hmem | hmem)
    · exact hends (List.suffix_append inner [13, 10])
    · exact absurd hlength (Nat.not_le_of_lt hlong)
    · exact hcr hmem
    · exact hlf hmem
  unfold dataLine
  rw [htake, hdot]
  dsimp only
  rw [if_neg hframed, if_neg (Nat.not_lt.mpr hunstuffed), if_neg (by simp), if_neg (Nat.not_lt.mpr hsize), if_neg (Nat.not_lt.mpr hbuffer)]

theorem stuff_eq (inner : Octets) : ∃ inner', stuff (inner ++ [13, 10]) = inner' ++ [13, 10] ∧
    (∀ b, b ∈ inner' → b = 46 ∨ b ∈ inner) ∧ inner'.length ≤ inner.length + 1 ∧
    (if (inner' ++ [13, 10]).head? = some 46 then (inner' ++ [13, 10]).tail
      else inner' ++ [13, 10]) = inner ++ [13, 10] := by
  unfold stuff
  by_cases hdot : (inner ++ [13, 10]).head? = some 46
  · rw [if_pos hdot]
    refine ⟨46 :: inner, rfl, ?_, le_rfl, rfl⟩
    intro b hb
    exact List.mem_cons.mp hb
  · rw [if_neg hdot]
    exact ⟨inner, rfl, fun b hb ↦ .inr hb, Nat.le_succ _, if_neg hdot⟩

/-- A stuffed line loses its dot again. -/
theorem dataLine_stuff {config : SMTPConfig} {others : ℕ} {content : Octets} (h : TextLine line)
    (hsize : content.length + line.length ≤ config.maxMessageBytes)
    (hbuffer : others + content.length + line.length ≤ config.maxBufferBytes) :
    dataLine config others { content := content } (stuff line) = { content := content ++ line } := by
  obtain ⟨inner, rfl, hcr, hlf, hlength⟩ := h
  obtain ⟨inner', hstuff, hmem, hlength', hdot⟩ := stuff_eq inner
  rw [hstuff]
  refine dataLine_fits ?_ ?_ ?_ hdot hlength hsize hbuffer
  · intro hcr'
    rcases hmem 13 hcr' with h | h
    · exact absurd h (by decide)
    · exact hcr h
  · intro hlf'
    rcases hmem 10 hlf' with h | h
    · exact absurd h (by decide)
    · exact hlf h
  · simp only [List.length_append, List.length_cons, List.length_nil] at hlength ⊢
    omega

theorem stuffed_line (h : TextLine line) : (∃ inner, stuff line = inner ++ [10] ∧ 10 ∉ inner) ∧
    overLimit (stuff line) = false ∧ stuff line ≠ dot := by
  obtain ⟨inner, rfl, hcr, hlf, hlength⟩ := h
  obtain ⟨inner', hstuff, hmem, hlength', hdot⟩ := stuff_eq inner
  rw [hstuff]
  refine ⟨⟨inner' ++ [13], by simp, ?_⟩, ?_, ?_⟩
  · intro h
    rcases List.mem_append.mp h with h | h
    · rcases hmem 10 h with h | h
      · exact absurd h (by decide)
      · exact hlf h
    · exact absurd (List.mem_singleton.mp h) (by decide)
  · simp only [List.length_append, List.length_cons, List.length_nil] at hlength
    simp only [overLimit, List.getLast?_append, List.getLast?_cons_cons, List.getLast?_singleton,
      List.length_append, List.length_cons, List.length_nil]
    simp
    omega
  · intro h
    have hinner : inner' = [46] := List.append_cancel_right (h.trans (rfl : dot = [46] ++ [13, 10]))
    rw [hinner] at hdot
    have hlist : [13, 10] = inner ++ [13, 10] := hdot
    have hempty : inner = [] := by simpa using hlist.symm
    rw [hempty] at hstuff
    rw [hinner] at hstuff
    exact absurd hstuff (by decide)

/-- DATA takes the stuffed lines of a text for the text, and ends behind its dot. -/
theorem dataLoop_stuff {config : SMTPConfig} {turns : ℕ → Except ConnectionEnd ℕ}
    {ls : List Octets} (content : Octets) (after : List Octets) (hls : ∀ line ∈ ls, TextLine line)
    (hsize : content.length + ls.flatten.length ≤ config.maxMessageBytes)
    (hturns : ∀ n ≤ ls.length, ∃ others, turns n = .ok others ∧
      others + content.length + ls.flatten.length ≤ config.maxBufferBytes) :
    dataLoop config turns { content := content } (ls.map stuff ++ dot :: after) =
      .ok ({ content := content ++ ls.flatten }, after) := by
  induction ls generalizing turns content with
  | nil =>
    obtain ⟨others, hothers, -⟩ := hturns 0 le_rfl
    have hdot : overLimit dot = false := by decide
    simp [dataLoop, hothers, hdot]
  | cons line ls ih =>
    obtain ⟨hline, hls⟩ := List.forall_mem_cons.mp hls
    obtain ⟨-, hlimit, hne⟩ := stuffed_line hline
    obtain ⟨others, hothers, hbuffer⟩ := hturns 0 (Nat.zero_le _)
    rw [List.flatten_cons, List.length_append] at hsize hbuffer
    have hstep : dataLine config others { content := content } (stuff line) =
        { content := content ++ line } :=
      dataLine_stuff hline (by omega) (by omega)
    rw [List.map_cons, List.cons_append, dataLoop, hothers]
    dsimp only
    rw [if_neg (by simp [hlimit]), if_neg hne, hstep, ih (content ++ line) hls, List.append_assoc]
    · rfl
    · rw [List.length_append]
      omega
    · intro n hn
      obtain ⟨others', hothers', hbuffer'⟩ := hturns (n + 1) (Nat.succ_le_succ hn)
      refine ⟨others', hothers', ?_⟩
      rw [List.flatten_cons, List.length_append] at hbuffer'
      rw [List.length_append]
      omega

end Lines

variable {registry : HeaderRegistry} {config : Config}

/-- `_data` takes a stuffed text for the text and leaves what is behind its dot. The
upstream gets the body of an accepted text as it is, whatever headers are written
in front of it. -/
theorem body_preserved (email : EmailPackage) {ls : List Octets} (hls : ∀ line ∈ ls, TextLine line)
    (hsize : ls.flatten.length ≤ config.smtp.maxMessageBytes)
    {turns : ℕ → Except ConnectionEnd ℕ}
    (hturns : ∀ n ≤ ls.length, ∃ others, turns n = .ok others ∧
      others + ls.flatten.length ≤ config.smtp.maxBufferBytes)
    (hwritten : ∀ fields octets, registry.asBytes fields = some octets →
      (splitHead octets).isSome) (rest : Octets) (deliver : Octets → Except ConnectionEnd String)
    (reply : String → Except ConnectionEnd Unit) (contentType : Octets → String) :
    data config.smtp turns deliver reply
        (lines 10 ((ls.map stuff).flatten ++ (dot ++ rest))) =
      (deliver ls.flatten).bind
        (fun text ↦ (reply text).map (fun _ ↦ (text, lines 10 rest))) ∧
    ∀ recipients envelopeSender queueId additionalSender date p,
      prepareMessage email registry config ls.flatten recipients envelopeSender queueId
        additionalSender date = .ok p →
      ∀ account : AccountConfig, ∃ mime rawHead head body,
        carried account.backend (payload contentType account p.mime) = some mime ∧
        splitHead ls.flatten = some (rawHead, body) ∧ splitHead mime = some (head, body) := by
  refine ⟨?_, ?_⟩
  · have hlines : lines 10 ((ls.map stuff).flatten ++ (dot ++ rest)) =
        ls.map stuff ++ dot :: lines 10 rest := by
      rw [lines_flatten, lines_append (.inr rfl)]
      · rfl
      · intro line hline
        obtain ⟨line', hline', rfl⟩ := List.mem_map.mp hline
        exact (stuffed_line (hls line' hline')).1
    have hloop := dataLoop_stuff [] (lines 10 rest) hls (by simpa using hsize)
      (by simpa using hturns)
    rw [data, hlines, hloop]
    simp only [List.nil_append]
    cases deliver ls.flatten with
    | error e => rfl
    | ok text => cases hreply : reply text <;> simp [Except.bind, Except.map, hreply]
  · intro recipients envelopeSender queueId additionalSender date p h account
    obtain ⟨parsed, resent, enforced, merged, final, body, hstages⟩ := prepareMessage_eq_ok h
    obtain ⟨rawHead, hsplit, -⟩ := parseHead_eq_ok hstages.parse
    have hmime := hstages.written
    unfold serialize at hmime
    split at hmime
    · cases hmime
    next octets hoctets =>
      obtain ⟨⟨head, tail⟩, hhead⟩ := Option.isSome_iff_exists.mp (hwritten final octets hoctets)
      rw [hhead] at hmime
      refine ⟨p.mime, rawHead, head, body, carried_payload contentType account p.mime, hsplit, ?_⟩
      rw [← Except.ok.inj hmime]
      exact (splitHead_eq_some hhead).2 body

/-- A message whose body has a dot on a line of its own. -/
def dottedLines : List Octets := [ascii "From: gateway@example.test\r\n",
  ascii "To: user@example.test\r\n", ascii "\r\n", ascii ".\r\n", ascii "Hello\r\n"]

theorem dottedLines_text : ∀ line ∈ dottedLines, TextLine line := by
  have hall : ∀ line ∈ dottedLines, line = line.dropLast.dropLast ++ [13, 10] ∧
      13 ∉ line.dropLast.dropLast ∧ 10 ∉ line.dropLast.dropLast ∧ line.length ≤ 1000 := by
    decide +kernel
  exact fun line hline ↦ ⟨line.dropLast.dropLast, hall line hline⟩

theorem plain_written (fields : List Field) (octets : Octets)
    (h : plainRegistry.asBytes fields = some octets) : (splitHead octets).isSome = true := by
  obtain ⟨head, tail, hsplit, -⟩ := plain_faithful.serialize h
  exact Option.isSome_iff_exists.mpr ⟨(head, tail), hsplit⟩

theorem body_preserved_sample : ∃ p mime rawHead head body,
    data plainConfig.smtp (fun _ ↦ .ok 0) (fun _ ↦ .ok "250") (fun _ ↦ .ok ())
      (lines 10 ((dottedLines.map stuff).flatten ++ (dot ++ ascii "QUIT\r\n"))) =
        .ok ("250", [ascii "QUIT\r\n"]) ∧
    prepareMessage plainMail plainRegistry plainConfig dottedLines.flatten
      ["hidden@example.net"] "" "m1" "" plainDate = .ok p ∧
    carried .ews (payload (fun _ ↦ "text/plain") {} p.mime) = some mime ∧
    splitHead dottedLines.flatten = some (rawHead, body) ∧ splitHead mime = some (head, body) := by
  have hok : (prepareMessage plainMail plainRegistry plainConfig dottedLines.flatten
      ["hidden@example.net"] "" "m1" "" plainDate).map (·.id) = .ok "m1" := by decide +kernel
  obtain ⟨p, hp, -⟩ := map_eq_ok.mp hok
  have hsize : dottedLines.flatten.length ≤ plainConfig.smtp.maxMessageBytes := by decide +kernel
  have hbuffer : 0 + dottedLines.flatten.length ≤ plainConfig.smtp.maxBufferBytes := by
    decide +kernel
  obtain ⟨hdata, hbody⟩ := body_preserved plainMail dottedLines_text hsize
    (fun _ _ ↦ ⟨0, rfl, hbuffer⟩) plain_written (ascii "QUIT\r\n") (fun _ ↦ .ok "250")
    (fun _ ↦ .ok ()) (fun _ ↦ "text/plain")
  obtain ⟨mime, rawHead, head, body, hcarried, hraw, hsplit⟩ := hbody _ _ _ _ _ p hp {}
  exact ⟨p, mime, rawHead, head, body, hdata, hp, hcarried, hraw, hsplit⟩

end NoreplyGateway
