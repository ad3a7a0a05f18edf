import NoreplyGateway.PyText

/-! `urllib.parse.urlsplit`, with the checks of the network location as a
parameter. -/

namespace NoreplyGateway

open PyText

structure SplitUrl where
  scheme : List Char
  netloc : List Char
  path : List Char
  query : List Char
  fragment : List Char
  deriving DecidableEq

namespace SplitUrl

/-- Leading control characters and spaces go, and line breaks and tabs anywhere. -/
def clean (url : List Char) : List Char :=
  (url.dropWhile (fun c ↦ c.toNat ≤ 32)).filter (fun c ↦ c ≠ '\t' ∧ c ≠ '\r' ∧ c ≠ '\n')

def isSchemeChar (c : Char) : Bool := c.isAlphanum ∨ c = '+' ∨ c = '-' ∨ c = '.'

def splitScheme (url : List Char) : List Char × List Char :=
  let (scheme, found, rest) := partition ':' url
  if found ∧ scheme.head?.any Char.isAlpha ∧ scheme.all isSchemeChar then
    (scheme.map Char.toLower, rest)
  else ([], url)

def isDelimiter (c : Char) : Bool := c = '/' ∨ c = '?' ∨ c = '#'

def splitNetloc (url : List Char) : List Char × List Char :=
  match url with
  | '/' :: '/' :: rest => (rest.takeWhile (!isDelimiter ·), rest.dropWhile (!isDelimiter ·))
  | _ => ([], url)

def urlsplit (allowed : List Char → Bool) (url : List Char) : Option SplitUrl :=
  let (scheme, url) := splitScheme (clean url)
  let (netloc, url) := splitNetloc url
  let (url, _, fragment) := partition '#' url
  let (path, _, query) := partition '?' url
  if allowed netloc then some ⟨scheme, netloc, path, query, fragment⟩ else none

/-- `rpartition` at the last `@`. -/
def userinfo (u : SplitUrl) : Option (List Char) :=
  if '@' ∈ u.netloc then some ((u.netloc.reverse.dropWhile (· ≠ '@')).drop 1).reverse else none

def hostinfo (u : SplitUrl) : List Char := (u.netloc.reverse.takeWhile (· ≠ '@')).reverse

def username (u : SplitUrl) : Option (List Char) := u.userinfo.map (fun info ↦ (partition ':' info).1)

def password (u : SplitUrl) : Option (List Char) :=
  u.userinfo.bind fun info ↦
    let (_, found, password) := partition ':' info
    if found then some password else none

/-- The host in lower case, but for a zone. -/
def hostname (u : SplitUrl) : Option (List Char) :=
  let (_, bracket, bracketed) := partition '[' u.hostinfo
  let host := if bracket then (partition ']' bracketed).1 else (partition ':' u.hostinfo).1
  if host = [] then none
  else
    let (name, percent, zone) := partition '%' host
    some (name.map Char.toLower ++ (if percent then '%' :: zone else []))

section TrailingSlash

variable {allowed : List Char → Bool} {url : List Char} {u : SplitUrl}

theorem partition_found {c : Char} {before : List Char} (h : c ∉ before) (rest : List Char) :
    partition c (before ++ c :: rest) = (before, true, rest) := by
  have hne : ∀ d ∈ before, decide (d ≠ c) = true := by
    intro d hd
    exact decide_eq_true (fun hdc ↦ h (hdc ▸ hd))
  rw [partition, List.takeWhile_append_of_pos hne, List.dropWhile_append_of_pos hne,
    List.takeWhile_cons_of_neg (by simp), List.dropWhile_cons_of_neg (by simp)]
  simp

theorem partition_missing {c : Char} {text : List Char} (h : c ∉ text) :
    partition c text = (text, false, []) := by
  have hne : ∀ d ∈ text, decide (d ≠ c) = true := by
    intro d hd
    exact decide_eq_true (fun hdc ↦ h (hdc ▸ hd))
  rw [partition, List.takeWhile_eq_self_iff.mpr hne, List.dropWhile_eq_nil_iff.mpr hne]
  simp [h]

theorem takeWhile_concat {p : Char → Bool} {d : Char} (hd : p d = false) (l : List Char) :
    (l ++ [d]).takeWhile p = l.takeWhile p := by
  induction l with
  | nil => simp [hd]
  | cons c l ih =>
    by_cases hc : p c = true
    · rw [List.cons_append, List.takeWhile_cons_of_pos hc, List.takeWhile_cons_of_pos hc, ih]
    · rw [List.cons_append, List.takeWhile_cons_of_neg hc, List.takeWhile_cons_of_neg hc]

theorem dropWhile_concat {p : Char → Bool} {d : Char} (hd : p d = false) (l : List Char) :
    (l ++ [d]).dropWhile p = l.dropWhile p ++ [d] := by
  induction l with
  | nil => simp [hd]
  | cons c l ih =>
    by_cases hc : p c = true
    · rw [List.cons_append, List.dropWhile_cons_of_pos hc, List.dropWhile_cons_of_pos hc, ih]
    · rw [List.cons_append, List.dropWhile_cons_of_neg hc, List.dropWhile_cons_of_neg hc,
        List.cons_append]

theorem clean_slash (url : List Char) : clean (url ++ ['/']) = clean url ++ ['/'] := by
  rw [clean, dropWhile_concat (by decide), List.filter_append]
  rfl

theorem splitScheme_slash (url : List Char) :
    splitScheme (url ++ ['/']) = ((splitScheme url).1, (splitScheme url).2 ++ ['/']) := by
  by_cases hcolon : ':' ∈ url
  · obtain ⟨before, rest, rfl, hbefore⟩ := List.eq_append_cons_of_mem hcolon
    rw [List.append_assoc, List.cons_append]
    simp only [splitScheme, partition_found hbefore]
    split_ifs
    · rfl
    · simp
  · have hslash : ':' ∉ url ++ ['/'] := by simp [hcolon]
    simp only [splitScheme, partition_missing hcolon, partition_missing hslash]
    simp

theorem splitNetloc_slash {url : List Char} (h : (splitNetloc (url ++ ['/'])).1 ≠ []) :
    splitNetloc (url ++ ['/']) = ((splitNetloc url).1, (splitNetloc url).2 ++ ['/']) := by
  have hplain : ∀ {l : List Char}, (∀ rest, l ≠ '/' :: '/' :: rest) → splitNetloc l = ([], l) := by
    intro l hl
    unfold splitNetloc
    split
    · next rest => exact absurd rfl (hl rest)
    · rfl
  by_cases hurl : ∃ rest, url = '/' :: '/' :: rest
  · obtain ⟨rest, rfl⟩ := hurl
    simp only [List.cons_append, splitNetloc]
    rw [takeWhile_concat (by decide), dropWhile_concat (by decide)]
  · have hslashes : ∃ rest, url ++ ['/'] = '/' :: '/' :: rest := by
      by_contra hnone
      exact h (congrArg Prod.fst (hplain (fun rest heq ↦ hnone ⟨rest, heq⟩)))
    obtain ⟨rest, hrest⟩ := hslashes
    match url with
    | [] => cases hrest
    | [c] =>
      obtain ⟨rfl, -⟩ := List.cons.inj hrest
      exact absurd rfl h
    | c :: d :: tail =>
      obtain ⟨rfl, htail⟩ := List.cons.inj hrest
      obtain ⟨rfl, -⟩ := List.cons.inj htail
      exact absurd ⟨tail, rfl⟩ hurl

/-- A URL that ends with a slash has it at the end of its path, unless the slash
is part of a query or a fragment. -/
theorem urlsplit_slash (h : urlsplit allowed (url ++ ['/']) = some u) (hn : u.netloc ≠ [])
    (hq : u.query = []) (hf : u.fragment = []) : ∃ path, u.path = path ++ ['/'] ∧
      urlsplit allowed url = some { u with path := path } := by
  simp only [urlsplit, clean_slash, splitScheme_slash] at h ⊢
  generalize splitScheme (clean url) = s at h ⊢
  obtain ⟨hallowed, hu⟩ := Option.ite_none_right_eq_some.mp h
  obtain rfl := Option.some.inj hu
  rw [splitNetloc_slash hn] at hallowed hq hf ⊢
  generalize splitNetloc s.2 = n at hallowed hq hf ⊢
  have hhash : '#' ∉ n.2 := by
    intro hmem
    obtain ⟨before, rest, hsplit, hbefore⟩ := List.eq_append_cons_of_mem hmem
    rw [hsplit, List.append_assoc, List.cons_append] at hf
    simp [partition_found hbefore] at hf
  have hhash' : '#' ∉ n.2 ++ ['/'] := by simp [hhash]
  rw [partition_missing hhash'] at hq hf ⊢
  rw [partition_missing hhash]
  have hmark : '?' ∉ n.2 := by
    intro hmem
    obtain ⟨before, rest, hsplit, hbefore⟩ := List.eq_append_cons_of_mem hmem
    rw [hsplit, List.append_assoc, List.cons_append] at hq
    simp [partition_found hbefore] at hq
  have hmark' : '?' ∉ n.2 ++ ['/'] := by simp [hmark]
  rw [partition_missing hmark', partition_missing hmark]
  exact ⟨n.2, rfl, if_pos hallowed⟩

end TrailingSlash

end SplitUrl

end NoreplyGateway
