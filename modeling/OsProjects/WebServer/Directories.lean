import OsProjects.WebServer.Process

/-!
# Requests for directories

`path` already starts with the current directory.  The redirection sends it to
the client as if it were a path of the server, and the index file is looked for
below the current directory a second time.
-/

namespace OsProjects.WebServer
open Stdio

/-- A `GET` request for `P`, which is a directory below `cwd`. -/
structure DirectoryRequest (fs : FileSystem) (cwd input P : Text) : Prop where
  line : ∃ method protocol, requestLine input = some (method, P, protocol) ∧
    sameIgnoringCase method "GET".toList
  slash : P.head? = some '/'
  directory : fs.stat (cwd ++ P) = some .directory

def indexFile (cwd P : Text) : Text := cwd ++ P ++ "index.html".toList

/-- What a client may expect of a request for a directory. -/
structure Resolves (crash : ℤ) (random : ℕ) (fs : FileSystem) (cwd input P : Text) : Prop where
  /-- A path without a slash at its end is redirected to the same directory. -/
  redirected : P.getLast? ≠ some '/' → ∃ reply Q,
    process crash random fs cwd input = .ok (.replied reply) ∧ reply.headers.status = 302 ∧
      reply.headers.extra = some ("Location: ".toList ++ Q) ∧
      requestPath cwd Q = .ok (cwd ++ P ++ "/".toList)
  /-- The index file is served where there is one. -/
  index : P.getLast? = some '/' → ∀ size, fs.stat (indexFile cwd P) = some (.file size) →
    process crash random fs cwd input =
      .ok (.replied (sendFile fs (indexFile cwd P) (.file size)))
  /-- The directory is listed only where there is none. -/
  listed : P.getLast? = some '/' → ∀ reply path parent rows,
    process crash random fs cwd input = .ok (.replied reply) →
      reply.body = .listing path parent rows →
        path = cwd ++ P ∧ ∀ size, fs.stat (indexFile cwd P) ≠ some (.file size)

/-- The thread survives, and both paths fit into their buffers. -/
def Answers (crash : ℤ) (random : ℕ) (cwd P : Text) : Prop :=
  ¬ (0 < crash ∧ (random : ℤ) % 100 < crash) ∧ cwd.length < 1024 ∧ (cwd ++ P).length < 4096

variable {crash : ℤ} {random : ℕ} {fs : FileSystem} {cwd input P Q : Text}

lemma requestPath_eq_ok : requestPath cwd P = .ok Q ↔
    (cwd.length < 1024 ∧ (cwd ++ P).length < 4096) ∧ Q = cwd ++ P := by
  unfold requestPath getcwd sprintf
  by_cases h1 : cwd.length < 1024
  · rw [if_pos h1]
    change (if (cwd ++ P).length < 4096 then Except.ok (cwd ++ P)
      else .error Fault.overflow) = _ ↔ _
    by_cases h2 : (cwd ++ P).length < 4096
    · rw [if_pos h2, Except.ok.injEq]
      exact ⟨fun h => ⟨⟨h1, h2⟩, h.symm⟩, fun h => h.2.symm⟩
    · rw [if_neg h2]
      exact ⟨nofun, fun h => absurd h.1.2 h2⟩
  · rw [if_neg h1]
    exact ⟨nofun, fun h => absurd h.1.1 h1⟩

/-- What `process` does for a directory once it has found it. -/
def directoryReply (fs : FileSystem) (cwd path : Text) : Except Fault Outcome :=
  if path.getLast? ≠ some '/' then
    .ok (.replied (sendError 302 "Found"
      (some (snprintf 4096 ("Location: ".toList ++ path ++ "/".toList)))
      "Directories must end with a slash."))
  else
    match fs.stat (snprintf 4096 (cwd ++ path ++ "index.html".toList)) with
    | some statbuf =>
      .ok (.replied (sendFile fs (snprintf 4096 (cwd ++ path ++ "index.html".toList)) statbuf))
    | none => do
      let rows ← listRows fs path .directory (fs.readdir path)
      .ok (.replied
        { headers := sendHeaders 200 "OK" none (some "text/html") (-1)
          body := .listing path (decide (1 < path.length)) rows })

lemma process_directory (hr : DirectoryRequest fs cwd input P) (ha : Answers crash random cwd P) :
    process crash random fs cwd input = directoryReply fs cwd (cwd ++ P) := by
  obtain ⟨method, protocol, hline, hget⟩ := hr.line
  have hpath : requestPath cwd P = .ok (cwd ++ P) := requestPath_eq_ok.mpr ⟨ha.2, rfl⟩
  rw [process, if_neg ha.1, hline]
  simp only [hpath, hget, hr.directory, bind, Except.bind, not_true_eq_false, if_false]
  rfl

/-- Otherwise nothing is answered. -/
lemma process_not_replied (hr : DirectoryRequest fs cwd input P)
    (ha : ¬ Answers crash random cwd P) (reply : Reply) :
    process crash random fs cwd input ≠ .ok (.replied reply) := by
  obtain ⟨method, protocol, hline, hget⟩ := hr.line
  rw [process]
  by_cases hcrash : 0 < crash ∧ (random : ℤ) % 100 < crash
  · rw [if_pos hcrash]
    exact nofun
  · rw [if_neg hcrash, hline]
    cases hpath : requestPath cwd P with
    | error e =>
      simp only [hpath, bind, Except.bind]
      exact nofun
    | ok path => exact absurd ⟨hcrash, (requestPath_eq_ok.mp hpath).1⟩ ha

lemma DirectoryRequest.getLast? (hr : DirectoryRequest fs cwd input P) :
    (cwd ++ P).getLast? = P.getLast? := by
  have hne : P ≠ [] := by
    rintro rfl
    exact absurd hr.slash nofun
  exact List.getLast?_append_of_ne_nil _ hne

/-- `Location: ` takes ten of the 4095 characters. -/
lemma snprintf_location (s : Text) :
    snprintf 4096 ("Location: ".toList ++ s) = "Location: ".toList ++ s.take 4085 := by
  rw [snprintf, List.take_append, show "Location: ".toList.length = 10 from rfl,
    List.take_of_length_le (by decide)]

/-- The index file and the file that is looked up in its place are forbidden both. -/
def BothForbidden (fs : FileSystem) (cwd P : Text) : Prop :=
  fs.fopen (indexFile cwd P) = false ∧
    (fs.stat ((cwd ++ indexFile cwd P).take 4095)).isSome = true ∧
      fs.fopen ((cwd ++ indexFile cwd P).take 4095) = false

/-- The condition under which the answer is right: with a slash at the end of `P` there is no
index file, or the truncation to 4095 characters restores its name, or both are answered by 403;
without one the truncation turns the path of the directory into that of the request. -/
def DirectoryOk (crash : ℤ) (random : ℕ) (fs : FileSystem) (cwd P : Text) : Prop :=
  if P.getLast? = some '/' then
    (∃ size, fs.stat (indexFile cwd P) = some (.file size)) →
      Answers crash random cwd P ∧
        ((cwd ++ indexFile cwd P).take 4095 = indexFile cwd P ∨ BothForbidden fs cwd P)
  else
    Answers crash random cwd P ∧ (cwd ++ P ++ "/".toList).length < 4096 ∧
      (cwd ++ P ++ "/".toList).take 4085 = P ++ "/".toList

lemma sendFile_of_fopen {path : Text} (h : fs.fopen path = true) (statbuf : Stat) :
    (sendFile fs path statbuf).body = .file path := by
  rw [sendFile, if_pos h]

lemma sendFile_forbidden {path : Text} (h : fs.fopen path = false) (statbuf : Stat) :
    sendFile fs path statbuf = sendError 403 "Forbidden" none "Access denied." := by
  rw [sendFile, if_neg (by simp [h])]

/-- What `send_file` sends is no listing. -/
lemma sendFile_body_ne {path path' : Text} {statbuf : Stat} {parent : Bool}
    {rows : List (Text × Bool)} : (sendFile fs path statbuf).body ≠ .listing path' parent rows := by
  unfold sendFile
  split_ifs <;> exact nofun

/-- Two files are sent alike only if they are the same or both are forbidden. -/
lemma sendFile_eq {path path' : Text} {st st' : Stat}
    (h : sendFile fs path st = sendFile fs path' st') :
    path = path' ∨ fs.fopen path = false ∧ fs.fopen path' = false := by
  have hbody := congrArg Reply.body h
  cases hp : fs.fopen path with
  | true =>
    rw [sendFile_of_fopen hp] at hbody
    cases hp' : fs.fopen path' with
    | true =>
      rw [sendFile_of_fopen hp'] at hbody
      exact Or.inl (Body.file.inj hbody)
    | false =>
      rw [sendFile_forbidden hp'] at hbody
      cases hbody
  | false =>
    cases hp' : fs.fopen path' with
    | true =>
      rw [sendFile_forbidden hp, sendFile_of_fopen hp'] at hbody
      cases hbody
    | false => exact Or.inr ⟨rfl, rfl⟩

/-- The redirection leads back to the directory only by truncation. -/
lemma redirected_iff (hr : DirectoryRequest fs cwd input P) (hP : P.getLast? ≠ some '/') :
    (∃ reply Q, process crash random fs cwd input = .ok (.replied reply) ∧
      reply.headers.status = 302 ∧ reply.headers.extra = some ("Location: ".toList ++ Q) ∧
      requestPath cwd Q = .ok (cwd ++ P ++ "/".toList)) ↔
    Answers crash random cwd P ∧ (cwd ++ P ++ "/".toList).length < 4096 ∧
      (cwd ++ P ++ "/".toList).take 4085 = P ++ "/".toList := by
  by_cases ha : Answers crash random cwd P
  · have hreply : process crash random fs cwd input = .ok (.replied (sendError 302 "Found"
        (some ("Location: ".toList ++ (cwd ++ P ++ "/".toList).take 4085))
        "Directories must end with a slash.")) := by
      rw [process_directory hr ha, directoryReply, hr.getLast?, if_pos hP, List.append_assoc,
        snprintf_location]
    constructor
    · rintro ⟨reply, Q, hprocess, -, hextra, hpath⟩
      rw [hreply] at hprocess
      obtain rfl := Outcome.replied.inj (Except.ok.inj hprocess)
      obtain rfl := List.append_cancel_left (Option.some.inj hextra)
      obtain ⟨⟨-, hlen⟩, heq⟩ := requestPath_eq_ok.mp hpath
      have hcancel : cwd ++ (P ++ "/".toList) =
          cwd ++ (cwd ++ P ++ "/".toList).take 4085 := by
        rw [← List.append_assoc]
        exact heq
      rw [← heq] at hlen
      exact ⟨ha, hlen, (List.append_cancel_left hcancel).symm⟩
    · rintro ⟨-, hlen, htake⟩
      refine ⟨_, _, hreply, rfl, rfl, requestPath_eq_ok.mpr ?_⟩
      rw [htake, ← List.append_assoc]
      exact ⟨⟨ha.2.1, hlen⟩, rfl⟩
  · constructor
    · rintro ⟨reply, Q, hprocess, -⟩
      exact absurd hprocess (process_not_replied hr ha reply)
    · exact fun h => absurd h.1 ha

/-- The index file is served only when its name is found behind a second `cwd`. -/
lemma index_iff (hr : DirectoryRequest fs cwd input P) (hP : P.getLast? = some '/') {size : ℕ}
    (hfile : fs.stat (indexFile cwd P) = some (.file size)) :
    process crash random fs cwd input =
        .ok (.replied (sendFile fs (indexFile cwd P) (.file size))) ↔
      Answers crash random cwd P ∧
        ((cwd ++ indexFile cwd P).take 4095 = indexFile cwd P ∨ BothForbidden fs cwd P) := by
  by_cases ha : Answers crash random cwd P
  · have hbuf : snprintf 4096 (cwd ++ (cwd ++ P) ++ "index.html".toList) =
        (cwd ++ indexFile cwd P).take 4095 := by
      rw [snprintf, indexFile, List.append_assoc]
    rw [process_directory hr ha, directoryReply, hr.getLast?, if_neg (not_not_intro hP), hbuf]
    constructor
    · intro h
      refine ⟨ha, ?_⟩
      cases hstat : fs.stat ((cwd ++ indexFile cwd P).take 4095) with
      | some statbuf =>
        simp only [hstat] at h
        rcases sendFile_eq (Outcome.replied.inj (Except.ok.inj h)) with hsame | ⟨hfirst, hindex⟩
        · exact Or.inl hsame
        · exact Or.inr ⟨hindex, by rw [hstat]; rfl, hfirst⟩
      | none =>
        simp only [hstat] at h
        cases hrows : listRows fs (cwd ++ P) .directory (fs.readdir (cwd ++ P)) with
        | error e =>
          rw [hrows] at h
          cases h
        | ok rows =>
          rw [hrows] at h
          have hsame := congrArg Reply.body (Outcome.replied.inj (Except.ok.inj h))
          exact absurd hsame.symm sendFile_body_ne
    · rintro ⟨-, heq | ⟨hindex, hstat, hfirst⟩⟩
      · simp only [heq, hfile]
      · obtain ⟨statbuf, hstat⟩ := Option.isSome_iff_exists.mp hstat
        simp only [hstat, sendFile_forbidden hindex, sendFile_forbidden hfirst]
  · exact ⟨fun h => absurd h (process_not_replied hr ha _), fun h => absurd h.1 ha⟩

/-- A listing is one of the directory asked for. -/
lemma listed_path (hr : DirectoryRequest fs cwd input P) (hP : P.getLast? = some '/')
    {reply : Reply} {path : Text} {parent : Bool} {rows : List (Text × Bool)}
    (hreply : process crash random fs cwd input = .ok (.replied reply))
    (hbody : reply.body = .listing path parent rows) : path = cwd ++ P := by
  by_cases ha : Answers crash random cwd P
  · rw [process_directory hr ha, directoryReply, hr.getLast?, if_neg (not_not_intro hP)] at hreply
    cases hstat : fs.stat (snprintf 4096 (cwd ++ (cwd ++ P) ++ "index.html".toList)) with
    | some statbuf =>
      simp only [hstat] at hreply
      obtain rfl := Outcome.replied.inj (Except.ok.inj hreply)
      exact absurd hbody sendFile_body_ne
    | none =>
      simp only [hstat] at hreply
      cases hrows : listRows fs (cwd ++ P) .directory (fs.readdir (cwd ++ P)) with
      | error e =>
        rw [hrows] at hreply
        cases hreply
      | ok rows' =>
        rw [hrows] at hreply
        obtain rfl := Outcome.replied.inj (Except.ok.inj hreply)
        exact (Body.listing.inj hbody).1.symm
  · exact absurd hreply (process_not_replied hr ha reply)

/-- A request for a directory is answered as a client may expect exactly when the path ends with
a slash and there is no index file, accidents of truncation apart. -/
theorem directory_requests (crash : ℤ) (random : ℕ) (fs : FileSystem) (cwd input P : Text)
    (hr : DirectoryRequest fs cwd input P) :
    Resolves crash random fs cwd input P ↔ DirectoryOk crash random fs cwd P := by
  unfold DirectoryOk
  split_ifs with hP
  · constructor
    · rintro h ⟨size, hfile⟩
      exact (index_iff hr hP hfile).mp (h.index hP size hfile)
    · intro h
      have hindex : ∀ size, fs.stat (indexFile cwd P) = some (.file size) →
          process crash random fs cwd input =
            .ok (.replied (sendFile fs (indexFile cwd P) (.file size))) :=
        fun size hfile => (index_iff hr hP hfile).mpr (h ⟨size, hfile⟩)
      refine ⟨fun hno => absurd hP hno, fun _ => hindex, ?_⟩
      intro _ reply path parent rows hreply hbody
      refine ⟨listed_path hr hP hreply hbody, fun size hfile => ?_⟩
      -- the index file would have been the answer
      obtain rfl := Outcome.replied.inj (Except.ok.inj ((hindex size hfile).symm.trans hreply))
      exact sendFile_body_ne hbody
  · rw [← redirected_iff hr hP]
    exact ⟨fun h => h.redirected hP,
      fun h => ⟨fun _ => h, fun hyes => absurd hyes hP, fun hyes => absurd hyes hP⟩⟩

/-- The directory `/srv/docs` with an index file and the empty directory `/srv/pub`. -/
def site : FileSystem where
  stat path :=
    if path = "/srv/docs".toList ∨ path = "/srv/docs/".toList ∨ path = "/srv/pub/".toList then
      some .directory
    else if path = "/srv/docs/index.html".toList then some (.file 12)
    else none
  fopen _ := true
  readdir _ := []

theorem directory_requests_pub :
    Resolves 0 0 site "/srv".toList "GET /pub/ HTTP/1.0\r\n".toList "/pub/".toList := by
  have hr : DirectoryRequest site "/srv".toList "GET /pub/ HTTP/1.0\r\n".toList "/pub/".toList :=
    ⟨⟨"GET".toList, "HTTP/1.0".toList, by decide, rfl⟩, rfl, by decide⟩
  refine (directory_requests 0 0 site _ _ _ hr).mpr ?_
  rw [DirectoryOk, if_pos (by decide)]
  rintro ⟨size, hfile⟩
  have hnone : site.stat (indexFile "/srv".toList "/pub/".toList) = none := by decide
  rw [hnone] at hfile
  cases hfile

/-- The redirection of `/docs` is to `/srv/docs/`, which stands for `/srv/srv/docs/`. -/
theorem directory_requests_docs :
    ¬ ∀ (crash : ℤ) (random : ℕ) (fs : FileSystem) (cwd input P : Text), cwd ≠ "/".toList →
      cwd.head? = some '/' → DirectoryRequest fs cwd input P →
        Resolves crash random fs cwd input P := by
  intro h
  have hr : DirectoryRequest site "/srv".toList "GET /docs HTTP/1.0\r\n".toList "/docs".toList :=
    ⟨⟨"GET".toList, "HTTP/1.0".toList, by decide, rfl⟩, rfl, by decide⟩
  have hresolves := h 0 0 site _ _ _ (by decide) rfl hr
  obtain ⟨-, -, htake⟩ := (redirected_iff hr (by decide)).mp (hresolves.redirected (by decide))
  revert htake
  decide

end OsProjects.WebServer
