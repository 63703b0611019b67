import OsProjects.WebServer.Directories

/-!
# The request of the client: `build_get_query` in `client.c`

The buffer that the client allocates is filled to the last byte, and the server
takes the request apart as the client has put it together if and only if the page
has no space and no line break and leaves room for the rest of the line.
-/

namespace OsProjects.WebServer
open Stdio

def userAgent : Text := "HTMLGET 1.0".toList

def tpl : Text := "GET /%s HTTP/1.0\r\nHost: %s\r\nUser-Agent: %s\r\n\r\n".toList

/-- What `sprintf` writes for a format with no conversion but `%s`. -/
def format : Text → List Text → Text
  | '%' :: 's' :: t, arg :: args => arg ++ format t args
  | c :: t, args => c :: format t args
  | [], _ => []

/-- The page without its leading slash. -/
def getPage : Text → Text
  | '/' :: page => page
  | page => page

/-- What `malloc` is asked for: `-5` is for the three `%s` and the terminating `'\0'`. -/
def querySize (host page : Text) : ℕ :=
  host.length + (getPage page).length + userAgent.length + tpl.length - 5

def buildGetQuery (host page : Text) : Except Fault Text :=
  sprintf (querySize host page) (format tpl [getPage page, host, userAgent])

/-! ## What is written -/

lemma format_append {s : Text} (hs : '%' ∉ s) (t : Text) (args : List Text) :
    format (s ++ t) args = s ++ format t args := by
  induction s with
  | nil => rfl
  | cons c s ih =>
    rw [List.mem_cons, not_or] at hs
    obtain ⟨hc, hs⟩ := hs
    rw [List.cons_append, format, ih hs, List.cons_append]
    intro t' arg args' hargs hpercent
    exact absurd hpercent.symm hc

/-- Up to the page. -/
def beforePage : Text := "GET /".toList

/-- Between the page and the host. -/
def beforeHost : Text := " HTTP/1.0\r\nHost: ".toList

/-- Between the host and `USERAGENT`. -/
def beforeAgent : Text := "\r\nUser-Agent: ".toList

def queryEnd : Text := "\r\n\r\n".toList

lemma format_tpl (page host agent : Text) :
    format tpl [page, host, agent] =
      beforePage ++ (page ++ (beforeHost ++ (host ++ (beforeAgent ++ (agent ++ queryEnd))))) := by
  have htpl : tpl = beforePage ++ '%' :: 's' :: (beforeHost ++ '%' :: 's' ::
      (beforeAgent ++ '%' :: 's' :: queryEnd)) := by decide
  have hend : format queryEnd [] = queryEnd := by decide
  have hpage : '%' ∉ beforePage := by decide
  have hhost : '%' ∉ beforeHost := by decide
  have hagent : '%' ∉ beforeAgent := by decide
  rw [htpl, format_append hpage, format, format_append hhost, format, format_append hagent,
    format, hend]

/-- The request and its `'\0'` fill the buffer. -/
lemma length_format (host page : Text) :
    (format tpl [getPage page, host, userAgent]).length + 1 = querySize host page := by
  have htpl : tpl.length = 46 := by decide
  have hpage : beforePage.length = 5 := by decide
  have hhost : beforeHost.length = 17 := by decide
  have hagent : beforeAgent.length = 14 := by decide
  have hend : queryEnd.length = 4 := by decide
  rw [format_tpl, querySize]
  simp only [List.length_append, htpl, hpage, hhost, hagent, hend]
  omega

/-! ## What is read -/

/-- A token and what follows its delimiter. -/
lemma strtok_append {delim c : Char} {s : Text} (hc : c ≠ delim) (hs : delim ∉ s) (rest : Text) :
    strtok delim (c :: (s ++ delim :: rest)) = some (c :: s, rest) := by
  have htok : ∀ d ∈ c :: s, decide (d ≠ delim) = true := by
    intro d hd
    refine decide_eq_true ?_
    rintro rfl
    cases hd with
    | head => exact hc rfl
    | tail _ hd => exact hs hd
  have htake : (c :: (s ++ delim :: rest)).takeWhile (· ≠ delim) = c :: s := by
    rw [← List.cons_append, List.takeWhile_append_of_pos htok, List.takeWhile_cons_of_neg,
      List.append_nil]
    simp
  have hdrop : (c :: (s ++ delim :: rest)).dropWhile (· ≠ delim) = delim :: rest := by
    rw [← List.cons_append, List.dropWhile_append_of_pos htok, List.dropWhile_cons_of_neg]
    simp
  rw [strtok, List.dropWhile_cons_of_neg (by simpa using hc)]
  simp only [htake, hdrop, List.drop_one, List.tail_cons]

lemma eq_of_dropWhile_eq_cons {delim d : Char} {s ds : Text}
    (h : s.dropWhile (· ≠ delim) = d :: ds) : d = delim := by
  have hne : s.dropWhile (· ≠ delim) ≠ [] := by
    rw [h]
    exact List.cons_ne_nil d ds
  have hhead := List.head_dropWhile_not (· ≠ delim) hne
  simp only [h, List.head_cons] at hhead
  simpa using hhead

/-- Where something follows a token, it follows its delimiter. -/
lemma strtok_eq_some {delim : Char} {s tok rest : Text} (h : strtok delim s = some (tok, rest)) :
    delim ∉ tok ∧ (rest ≠ [] → ∃ skipped, s = skipped ++ (tok ++ delim :: rest)) := by
  rw [strtok] at h
  cases hs : s.dropWhile (· = delim) with
  | nil =>
    rw [hs] at h
    cases h
  | cons c cs =>
    rw [hs] at h
    obtain ⟨rfl, rfl⟩ := Prod.mk.inj (Option.some.inj h)
    constructor
    · intro hmem
      simpa using List.mem_takeWhile_imp hmem
    · intro hrest
      refine ⟨s.takeWhile (· = delim), ?_⟩
      cases hdrop : (c :: cs).dropWhile (· ≠ delim) with
      | nil =>
        rw [hdrop] at hrest
        exact absurd rfl hrest
      | cons d ds =>
        obtain rfl := eq_of_dropWhile_eq_cons hdrop
        calc s = s.takeWhile (· = d) ++ (c :: cs) := by
              rw [← hs, List.takeWhile_append_dropWhile]
          _ = s.takeWhile (· = d) ++
              ((c :: cs).takeWhile (· ≠ d) ++ (c :: cs).dropWhile (· ≠ d)) := by
              rw [List.takeWhile_append_dropWhile]
          _ = _ := by rw [hdrop, List.drop_one, List.tail_cons]

/-! ## The request line -/

/-- What the server can read as one line with three tokens. -/
def Readable (page : Text) : Prop := ' ' ∉ page ∧ '\n' ∉ page ∧ page.length ≤ 4088

lemma requestLine_of_readable {page rest : Text} (hnul : '\x00' ∉ page) (hpage : Readable page) :
    ∃ protocol, requestLine (beforePage ++ (page ++ (' ' :: 'H' :: rest))) =
      some ("GET".toList, '/' :: page, protocol) := by
  obtain ⟨hspace, hline, hlength⟩ := hpage
  have hbefore : beforePage = ['G', 'E', 'T', ' ', '/'] := by decide
  have hget : "GET".toList = ['G', 'E', 'T'] := by decide
  have hread : ∃ buf after t, fgets 4096 (beforePage ++ (page ++ (' ' :: 'H' :: rest))) =
      some (buf, after) ∧
        cstr buf = 'G' :: (['E', 'T'] ++ ' ' :: ('/' :: (page ++ ' ' :: ('H' :: t)))) := by
    have hshape : beforePage ++ (page ++ (' ' :: 'H' :: rest)) =
        ('G' :: 'E' :: 'T' :: ' ' :: '/' :: (page ++ [' ', 'H'])) ++ rest := by
      rw [hbefore]
      simp
    rw [hshape]
    have hfits : ('G' :: 'E' :: 'T' :: ' ' :: '/' :: (page ++ [' ', 'H'])).length ≤ 4096 - 1 := by
      simp
      omega
    obtain ⟨t, after, ht⟩ := fgets_append (List.cons_ne_nil _ _) (by simp [hline]) hfits rest
    refine ⟨_, after, cstr t, ht, ?_⟩
    rw [cstr_append (by simp [hnul])]
    simp
  obtain ⟨buf, tail, t, hread, hbuf⟩ := hread
  have hprotocol : ∃ tok after, strtok '\r' ('H' :: t) = some (tok, after) := by
    rw [strtok, List.dropWhile_cons_of_neg (by decide)]
    exact ⟨_, _, rfl⟩
  obtain ⟨protocol, after, hprotocol⟩ := hprotocol
  refine ⟨protocol, ?_⟩
  rw [requestLine, hread, hget]
  simp only [Option.bind_eq_bind, Option.bind_some, hbuf]
  rw [strtok_append (by decide) (by decide)]
  simp only [Option.bind_some]
  rw [strtok_append (by decide) hspace]
  simp only [Option.bind_some, hprotocol]

lemma requestLine_eq_some {input method path protocol : Text}
    (h : requestLine input = some (method, path, protocol)) :
    ∃ buf tail rest rest' after, fgets 4096 input = some (buf, tail) ∧
      strtok ' ' (cstr buf) = some (method, rest) ∧ strtok ' ' rest = some (path, rest') ∧
      strtok '\r' rest' = some (protocol, after) := by
  simp only [requestLine, Option.bind_eq_bind, Option.bind_eq_some_iff, Prod.exists,
    Option.some.injEq, Prod.mk.injEq] at h
  obtain ⟨buf, tail, hbuf, _, rest, hmethod, _, rest', hpath, _, after, hprotocol, rfl, rfl,
    rfl⟩ := h
  exact ⟨buf, tail, rest, rest', after, hbuf, hmethod, hpath, hprotocol⟩

lemma ne_nil_of_strtok {delim : Char} {s tok rest : Text}
    (h : strtok delim s = some (tok, rest)) : s ≠ [] := by
  rintro rfl
  cases h

/-- The line up to a null character fits into the buffer too, and a line break is its end. -/
lemma cstr_of_fgets {size : ℕ} {input buf tail : Text} (h : fgets size input = some (buf, tail)) :
    (cstr buf).length ≤ size - 1 ∧ '\n' ∉ (cstr buf).dropLast := by
  obtain ⟨hlength, hbreak⟩ := fgets_some h
  have hpre : (cstr buf).dropLast <+: buf.dropLast := by
    rw [List.dropLast_eq_take, List.dropLast_eq_take]
    exact (List.IsPrefix.take (prefix_cstr buf) _).trans
      (List.take_prefix_take_left (Nat.sub_le_sub_right (prefix_cstr buf).length_le 1))
  exact ⟨(prefix_cstr buf).length_le.trans hlength, fun hmem => hbreak (hpre.subset hmem)⟩

/-- What is taken for the path stands in the line between two spaces, with more behind it. -/
lemma readable_of_requestLine {input method page protocol : Text} (hmethod : method.length = 3)
    (h : requestLine input = some (method, '/' :: page, protocol)) : Readable page := by
  obtain ⟨buf, tail, rest, rest', after, hbuf, htok, htok', htok''⟩ := requestLine_eq_some h
  obtain ⟨hlength, hbreak⟩ := cstr_of_fgets hbuf
  obtain ⟨-, hsplit⟩ := strtok_eq_some htok
  obtain ⟨hspace, hsplit'⟩ := strtok_eq_some htok'
  obtain ⟨skipped, hskipped⟩ := hsplit (ne_nil_of_strtok htok')
  obtain ⟨skipped', rfl⟩ := hsplit' (ne_nil_of_strtok htok'')
  rw [hskipped] at hlength hbreak
  obtain ⟨c, cs, rfl⟩ := List.exists_cons_of_ne_nil (ne_nil_of_strtok htok'')
  refine ⟨fun hmem => hspace (List.mem_cons_of_mem _ hmem), ?_, ?_⟩
  · intro hmem
    apply hbreak
    have hassoc : skipped ++ (method ++ ' ' :: (skipped' ++ ('/' :: page ++ ' ' :: c :: cs))) =
        (skipped ++ method ++ [' '] ++ skipped' ++ '/' :: page) ++ (' ' :: c :: cs) := by
      simp
    rw [hassoc, List.dropLast_append_of_ne_nil (List.cons_ne_nil _ _)]
    exact List.mem_append_left _ (List.mem_append_right _ (List.mem_cons_of_mem _ hmem))
  · simp only [List.length_append, List.length_cons] at hlength
    omega

lemma buildGetQuery_eq (host page : Text) :
    buildGetQuery host page = .ok (format tpl [getPage page, host, userAgent]) := by
  rw [buildGetQuery, sprintf, if_pos]
  exact Nat.lt_of_succ_le (length_format host page).le

lemma requestLine_query (host : Text) {page : Text} (hnul : '\x00' ∉ getPage page)
    (hpage : Readable (getPage page)) : ∃ protocol,
      requestLine (format tpl [getPage page, host, userAgent]) =
        some ("GET".toList, '/' :: getPage page, protocol) := by
  have hhost : ∃ rest, beforeHost = ' ' :: 'H' :: rest := ⟨_, rfl⟩
  obtain ⟨rest, hhost⟩ := hhost
  rw [format_tpl, hhost]
  exact requestLine_of_readable hnul hpage

/-- The client never writes past the end of its buffer, and the server finds the page in the
request if and only if the page has no space and no line break and is short enough. -/
theorem request_read (host page : Text) (hnul : '\x00' ∉ getPage page) :
    ∃ query, buildGetQuery host page = .ok query ∧ query.length + 1 = querySize host page ∧
      ((∃ protocol, requestLine query = some ("GET".toList, '/' :: getPage page, protocol)) ↔
        Readable (getPage page)) := by
  refine ⟨_, buildGetQuery_eq host page, length_format host page, ?_⟩
  constructor
  · rintro ⟨protocol, h⟩
    exact readable_of_requestLine (by decide) h
  · exact requestLine_query host hnul

theorem request_read_index : ∃ query,
    buildGetQuery "localhost".toList "/index.html".toList = .ok query ∧
      query.length + 1 = querySize "localhost".toList "/index.html".toList ∧
      ((∃ protocol, requestLine query =
        some ("GET".toList, '/' :: getPage "/index.html".toList, protocol)) ↔
          Readable (getPage "/index.html".toList)) :=
  request_read _ _ (by decide)

/-- `int length` announces the size as it is up to the largest `int`, and no other. -/
lemma length_sendHeaders (fs : FileSystem) {path : Text} (hopen : fs.fopen path = true)
    (size : ℕ) :
    (∃ length, (sendFile fs path (.file size)).headers.length = some length ∧
      length.toInt = size) ↔ size < 2 ^ 31 := by
  rw [sendFile, if_pos hopen]
  simp only [sendHeaders, Stat.length]
  constructor
  · rintro ⟨length, -, hlength⟩
    have hlt : length.toInt < 2 ^ 31 := length.toInt_lt
    omega
  · intro hsize
    have hlength : (Int32.ofInt size).toInt = size :=
      Int32.toInt_ofInt_of_le (by omega) (by omega)
    refine ⟨.ofInt size, if_pos ?_, hlength⟩
    rw [Int32.le_iff_toInt_le, hlength]
    exact Int.natCast_nonneg size

/-- The answer to a request that the client builds, at a server that does not crash: the file of
that name below the current directory, with its size up to the largest `int`, or that it may not
be read, or that there is none. -/
theorem request_answered (crash : ℤ) (random : ℕ) (fs : FileSystem) (cwd host page : Text)
    (hcrash : ¬ (0 < crash ∧ (random : ℤ) % 100 < crash)) (hnul : '\x00' ∉ getPage page)
    (hpage : Readable (getPage page)) (hcwd : cwd.length < 1024)
    (hpath : (cwd ++ '/' :: getPage page).length < 4096) :
    ∃ query, buildGetQuery host page = .ok query ∧
      (∀ size, fs.stat (cwd ++ '/' :: getPage page) = some (.file size) → ∃ reply,
        process crash random fs cwd query = .ok (.replied reply) ∧
          (fs.fopen (cwd ++ '/' :: getPage page) = true →
            reply.headers.status = 200 ∧ reply.body = .file (cwd ++ '/' :: getPage page) ∧
              ((∃ length, reply.headers.length = some length ∧ length.toInt = size) ↔
                size < 2 ^ 31)) ∧
          (fs.fopen (cwd ++ '/' :: getPage page) = false → reply.headers.status = 403)) ∧
      (fs.stat (cwd ++ '/' :: getPage page) = none → ∃ reply,
        process crash random fs cwd query = .ok (.replied reply) ∧ reply.headers.status = 404) := by
  obtain ⟨protocol, hline⟩ := requestLine_query host hnul hpage
  have hok : requestPath cwd ('/' :: getPage page) = .ok (cwd ++ '/' :: getPage page) :=
    requestPath_eq_ok.mpr ⟨⟨hcwd, hpath⟩, rfl⟩
  have hget : sameIgnoringCase "GET".toList "GET".toList := rfl
  refine ⟨_, buildGetQuery_eq host page, ?_, ?_⟩
  · intro size hfile
    refine ⟨sendFile fs (cwd ++ '/' :: getPage page) (.file size), ?_, fun hopen => ?_,
      fun hopen => ?_⟩
    · rw [process, if_neg hcrash, hline]
      simp only [hok, hget, hfile, bind, Except.bind, not_true_eq_false, if_false]
    · refine ⟨?_, sendFile_of_fopen hopen _, length_sendHeaders fs hopen size⟩
      rw [sendFile, if_pos hopen]
      rfl
    · rw [sendFile_forbidden hopen]
      rfl
  · intro hnone
    refine ⟨sendError 404 "Not Found" none "File not found.", ?_, rfl⟩
    rw [process, if_neg hcrash, hline]
    simp only [hok, hget, hnone, bind, Except.bind, not_true_eq_false, if_false]

theorem request_answered_docs : ∃ query reply,
    buildGetQuery "localhost".toList "/docs/index.html".toList = .ok query ∧
      process 0 0 site "/srv".toList query = .ok (.replied reply) ∧ reply.headers.status = 200 ∧
      reply.body = .file "/srv/docs/index.html".toList ∧
      ∃ length, reply.headers.length = some length ∧ length.toInt = 12 := by
  obtain ⟨query, hquery, hanswer, -⟩ := request_answered 0 0 site "/srv".toList
    "localhost".toList "/docs/index.html".toList (by decide) (by decide)
    (by unfold Readable; decide) (by decide) (by decide)
  obtain ⟨reply, hreply, hopen, -⟩ := hanswer 12 (by decide)
  obtain ⟨hstatus, hbody, hlength⟩ := hopen rfl
  exact ⟨query, reply, hquery, hreply, hstatus, hbody, hlength.mpr (by decide)⟩

end OsProjects.WebServer
