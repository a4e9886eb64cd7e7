/-
# Calls to a store of cards

A store is called to create a card, to read one, or to check a PIN, with any user names, any
texts for PINs and any keys, in any order (`Call`). A call answers and leaves files behind
(`serve`); the random source, which gives the vector of a new card, may fail.

A call has to do with one file, the card of its user directly inside the directory. Its answer
depends on nothing else, and it changes nothing else: a name that is no user name, and a text
that is too long for a PIN, are refused before any file is looked at. A card that was made
stands as it is from then on, because a new one is made exclusively (`serve_keeps_or_creates`),
so it accepts the PIN it was made from, and no other text, after any later calls
(`card_holds_its_pin`).
-/

import Cashpoint.Proofs.Card.Store

namespace Cashpoint
namespace CardStore

/-! ## Calls -/

/-- A call to a store. A new card is given the vector that the random source yields, or the reason why it
yields none. -/
inductive Call
  | create (pinKey : Bytes 32) (random : Except String Block) (user pin : String)
  | read (user : String)
  | verify (pinKey : Bytes 32) (user pin : String)

/-- The name that a call is about. -/
def Call.user : Call → String
  | create _ _ user _ => user
  | read user => user
  | verify _ user _ => user

/-- What a call answers if it does not fail. -/
inductive Answer
  | created
  | card (card : Card)
  | verified (right : Bool)
  deriving DecidableEq

/-- The tree with a new card. The random source is asked once the user name has been looked at. -/
def issue (store : CardStore) (files : FileTree) (pinKey : Bytes 32) (random : Except String Block)
    (user pin : String) : Except Error FileTree := do
  let _ ← store.path user
  match random with
  | .ok iv => store.create files pinKey iv user pin
  | .error reason => throw (.entropy reason)

/-- What a call answers, and the files after it. A call that fails leaves them as they are. -/
def serve (store : CardStore) (files : FileTree) : Call → Except Error Answer × FileTree
  | .create pinKey random user pin =>
    match store.issue files pinKey random user pin with
    | .ok files => (.ok .created, files)
    | .error e => (.error e, files)
  | .read user => ((store.read files user).map .card, files)
  | .verify pinKey user pin => ((store.verify files pinKey user pin).map .verified, files)

/-- The files after some calls. -/
def run (store : CardStore) (files : FileTree) (calls : List Call) : FileTree :=
  calls.foldl (fun files call => (store.serve files call).2) files

/-- One card more: a file of 32 bytes at a place that was free, directly inside the directory. Nothing else
is different. -/
def OneCardMore (store : CardStore) (files files' : FileTree) (user : String) : Prop :=
  ∃ folder bytes, files.Reaches store.directory folder ∧ files.lookup (folder ++ [fileName user]) = none ∧
    bytes.length = 32 ∧ ∀ place, files'.lookup place =
      if folder ++ [fileName user] = place then some (.file bytes) else files.lookup place

variable {store : CardStore} {files files' : FileTree} {call : Call} {pinKey : Bytes 32} {iv : Block}
  {random : Except String Block} {user pin : String}

/-! ## One call -/

/-- With a vector, a card is made under it. -/
theorem issue_of_random (huser : Credential.isUserName user = true) :
    store.issue files pinKey (.ok iv) user pin = store.create files pinKey iv user pin := by
  simp only [issue, path_eq huser, bind, Except.bind]

/-- Without a vector, no card is made, and the reason is told. -/
theorem issue_of_no_random (huser : Credential.isUserName user = true) (reason : String) :
    store.issue files pinKey (.error reason) user pin = .error (.entropy reason) := by
  simp only [issue, path_eq huser, bind, Except.bind, throw, throwThe, MonadExceptOf.throw]

/-- A card is issued under a vector of the random source. -/
theorem issue_eq_ok (h : store.issue files pinKey random user pin = .ok files') :
    ∃ iv, random = .ok iv ∧ store.create files pinKey iv user pin = .ok files' := by
  unfold issue at h
  cases hpath : store.path user with
  | error e => simp [hpath, bind, Except.bind] at h
  | ok p =>
    cases random with
    | error reason => simp [hpath, bind, Except.bind, throw, throwThe, MonadExceptOf.throw] at h
    | ok iv => exact ⟨iv, rfl, by simpa [hpath, bind, Except.bind] using h⟩

/-- A call that was answered with a new card has drawn a vector and made the card under it. -/
theorem serve_create_eq_created (h : store.serve files (.create pinKey random user pin) = (.ok .created, files')) :
    ∃ iv, random = .ok iv ∧ store.create files pinKey iv user pin = .ok files' := by
  simp only [serve] at h
  split at h
  · rename_i made hissue
    obtain rfl : made = files' := congrArg Prod.snd h
    exact issue_eq_ok hissue
  · simp at h

/-- **A call keeps the files or creates a card.** -/
theorem serve_keeps_or_creates (store : CardStore) (files : FileTree) (call : Call) :
    (store.serve files call).2 = files ∨ (store.serve files call).1 = .ok .created ∧
      ∃ pinKey iv pin, store.create files pinKey iv call.user pin = .ok (store.serve files call).2 := by
  cases call with
  | read user | verify pinKey user pin => exact Or.inl rfl
  | create pinKey random user pin =>
    simp only [serve]
    split
    · rename_i made hissue
      obtain ⟨iv, -, hcreate⟩ := issue_eq_ok hissue
      exact Or.inr ⟨rfl, pinKey, iv, pin, hcreate⟩
    · exact Or.inl rfl

/-- A card that was made is the only change. -/
theorem oneCardMore_of_create (h : store.create files pinKey iv user pin = .ok files') :
    store.OneCardMore files files' user := by
  obtain ⟨folder, card, hwalk, hfolder, hfree, rfl⟩ := create_eq_put h
  exact ⟨folder, card.toBytes, ⟨hwalk, hfolder⟩, hfree, card.length_toBytes, fun place =>
    FileTree.lookup_put (by simp)⟩

/-- **What is no user name is refused** before any file is looked at. -/
theorem serve_of_not_userName (h : Credential.isUserName call.user = false) :
    ∃ e, ∀ files, store.serve files call = (.error e, files) := by
  obtain ⟨e, hpath⟩ : ∃ e, store.path call.user = .error e := ⟨_, by rw [path, if_neg (by simp [h])]⟩
  refine ⟨e, fun files => ?_⟩
  cases call with
  | create pinKey random user pin =>
    simp only [Call.user] at hpath
    simp only [serve, issue, hpath, bind, Except.bind]
  | read user =>
    simp only [Call.user] at hpath
    simp only [serve, read, hpath, bind, Except.bind, Except.map]
  | verify pinKey user pin =>
    simp only [Call.user] at hpath
    simp only [serve, verify, read, hpath, bind, Except.bind, Except.map]

/-- **A text that is too long for a PIN is refused** before any file is looked at. -/
theorem serve_of_long (h : 16 ≤ (Utf8.encode pin).length) (pinKey : Bytes 32) (random : Except String Block)
    (user : String) : ∃ e, ∀ files, store.serve files (.create pinKey random user pin) = (.error e, files) := by
  cases huser : Credential.isUserName user with
  | false => exact serve_of_not_userName huser
  | true =>
    cases random with
    | error reason => exact ⟨.entropy reason, fun files => by simp only [serve, issue_of_no_random huser]⟩
    | ok iv =>
      exact ⟨.blockTooLong (Utf8.encode pin).length, fun files => by
        simp only [serve, issue_of_random huser, create, path_eq huser, Card.ofPin_of_long h, bind, Except.bind]⟩

/-- **A card exists already** just if something stands where it would go. -/
theorem create_eq_cardExists_iff (huser : Credential.isUserName user = true)
    (hshort : (Utf8.encode pin).length < 16) :
    store.create files pinKey iv user pin = .error (.cardExists user) ↔
      files.exists? (store.directory.join (fileName user)) = true := by
  obtain ⟨card, hcard⟩ := Card.ofPin_of_short hshort pinKey iv
  have hexists : files.createFile (store.directory.join (fileName user)) card.toBytes = .error .alreadyExists ↔
      files.exists? (store.directory.join (fileName user)) = true :=
    FileTree.createFile_join_eq_alreadyExists_iff (isFileName_fileName huser)
  rw [← hexists]
  unfold create
  cases hcreate : files.createFile (store.directory.join (fileName user)) card.toBytes with
  | ok made => simp [path_eq huser, hcard, hcreate, bind, Except.bind, pure, Except.pure]
  | error kind =>
    cases kind <;>
      simp [path_eq huser, hcard, hcreate, bind, Except.bind, throw, throwThe, MonadExceptOf.throw, Error.ofKind]

/-- **The answer of a call depends on the card of its user alone.** -/
theorem serve_congr (h : files.SameUnder files' store.directory (fileName call.user)) :
    (store.serve files call).1 = (store.serve files' call).1 := by
  have hsame := SameCard.of_sameUnder h
  cases call with
  | read user => exact congrArg (Except.map Answer.card) hsame.read_eq
  | verify pinKey user pin => exact congrArg (Except.map Answer.verified) (hsame.verify_eq pinKey pin)
  | create pinKey random user pin =>
    cases huser : Credential.isUserName user with
    | false =>
      obtain ⟨e, he⟩ : ∃ e, ∀ files, store.serve files (.create pinKey random user pin) = (.error e, files) :=
        serve_of_not_userName huser
      rw [he, he]
    | true =>
      cases random with
      | error reason => simp only [serve, issue_of_no_random huser]
      | ok iv =>
        simp only [serve, issue_of_random huser]
        rcases SameCard.create hsame pinKey iv pin with ⟨e, he, he'⟩ | ⟨after, after', hcreate, hcreate', -⟩
        · rw [show store.create files pinKey iv user pin = _ from he,
            show store.create files' pinKey iv user pin = _ from he']
        · rw [show store.create files pinKey iv user pin = _ from hcreate,
            show store.create files' pinKey iv user pin = _ from hcreate']

/-! ## Any number of calls -/

/-- No call changes or removes what is there. -/
theorem lookup_serve {place : Location} {entry : Entry} (h : files.lookup place = some entry) (call : Call) :
    (store.serve files call).2.lookup place = some entry := by
  rcases store.serve_keeps_or_creates files call with hsame | ⟨-, _, _, _, hcreate⟩
  · rw [hsame, h]
  · obtain ⟨-, _, -, hfile⟩ := create_eq_ok hcreate
    exact FileTree.lookup_after_createFile hfile h

/-- **Nothing that exists is changed or removed.** -/
theorem lookup_run {place : Location} {entry : Entry} (h : files.lookup place = some entry) (calls : List Call) :
    (store.run files calls).lookup place = some entry := by
  induction calls generalizing files with
  | nil => exact h
  | cons call rest ih => exact ih (lookup_serve h call)

/-- No call changes a card that can be read. -/
theorem read_serve {card : Card} (h : store.read files user = .ok card) (call : Call) :
    store.read (store.serve files call).2 user = .ok card := by
  rcases store.serve_keeps_or_creates files call with hsame | ⟨-, _, _, _, hcreate⟩
  · rw [hsame, h]
  · exact read_after_create hcreate h

/-- **A card that can be read stays what it is.** -/
theorem read_run {card : Card} (h : store.read files user = .ok card) (calls : List Call) :
    store.read (store.run files calls) user = .ok card := by
  induction calls generalizing files with
  | nil => exact h
  | cons call rest ih => exact ih (read_serve h call)

/-- **A card holds its PIN for good.**  Take any store and any files.

The card of a user name stands directly inside the directory, under a name of at most 255 bytes that no other
user has. A call with what is no user name, and one to create a card from a text of 16 bytes or more, fails in
one way whatever the files, and changes none. The answer of any other call depends on the card of its user
alone, and if it changes anything it adds that card.

A card that is created is one file of 32 bytes more. In a directory that is there a free name gets its card, if
the path to it can be followed, and where something stands, the answer is that the card exists. So no call
changes or removes what is there, and once a card was created, any text at all is checked against it by
comparing it with the PIN, after any later calls. -/
theorem card_holds_its_pin (store : CardStore) :
    (∀ user, Credential.isUserName user = true →
      '/' ∉ (fileName user).toList ∧ (fileName user).utf8ByteSize ≤ 255) ∧
    (∀ user other, fileName user = fileName other → user = other) ∧
    (∀ call : Call, Credential.isUserName call.user = false →
      ∃ e, ∀ files, store.serve files call = (.error e, files)) ∧
    (∀ (pinKey : Bytes 32) (random : Except String Block) (user pin : String), 16 ≤ (Utf8.encode pin).length →
      ∃ e, ∀ files, store.serve files (.create pinKey random user pin) = (.error e, files)) ∧
    (∀ (call : Call) (files files' : FileTree), files.SameUnder files' store.directory (fileName call.user) →
      (store.serve files call).1 = (store.serve files' call).1) ∧
    (∀ (call : Call) (files : FileTree), (store.serve files call).2 = files ∨
      (store.serve files call).1 = .ok .created ∧ store.OneCardMore files (store.serve files call).2 call.user) ∧
    (∀ (files : FileTree) (pinKey : Bytes 32) (iv : Block) (user pin : String),
      Credential.isUserName user = true → (Utf8.encode pin).length < 16 →
      ((store.serve files (.create pinKey (.ok iv) user pin)).1 = .error (.cardExists user) ↔
        files.exists? (store.directory.join (fileName user)) = true) ∧
      ∀ folder, files.Leads store.directory folder → store.Fits user →
        files.lookup (folder ++ [fileName user]) = none →
        (store.serve files (.create pinKey (.ok iv) user pin)).1 = .ok .created) ∧
    (∀ (files : FileTree) (calls : List Call) (place : Location) (entry : Entry),
      files.lookup place = some entry → (store.run files calls).lookup place = some entry) ∧
    ∀ (files files' : FileTree) (pinKey : Bytes 32) (random : Except String Block) (user pin : String),
      store.serve files (.create pinKey random user pin) = (.ok .created, files') →
      store.OneCardMore files files' user ∧ ∀ (later : List Call) (entered : String),
        (store.serve (store.run files' later) (.verify pinKey user entered)).1 =
          .ok (.verified (decide (entered = pin))) := by
  refine ⟨fun user huser => ⟨(isFileName_fileName huser).noSlash, size_fileName huser⟩,
    fun _ _ => fileName_inj, fun _ => serve_of_not_userName, fun pinKey random user _ hlong =>
      serve_of_long hlong pinKey random user, fun _ _ _ => serve_congr, fun call files => ?_,
    fun files pinKey iv user pin huser hshort => ⟨?_, fun folder hleads hfits hfree => ?_⟩,
    fun _ calls _ _ hfound => lookup_run hfound calls,
    fun files files' pinKey random user pin hserve => ?_⟩
  · rcases store.serve_keeps_or_creates files call with hsame | ⟨hcreated, _, _, _, hcreate⟩
    · exact Or.inl hsame
    · exact Or.inr ⟨hcreated, oneCardMore_of_create hcreate⟩
  · have hexists : store.create files pinKey iv user pin = .error (.cardExists user) ↔ _ :=
      create_eq_cardExists_iff huser hshort
    rw [← hexists]
    simp only [serve, issue_of_random huser]
    cases store.create files pinKey iv user pin <;> simp
  · obtain ⟨card, hcard⟩ := Card.ofPin_of_short hshort pinKey iv
    simp only [serve, issue_of_random huser, create_of_card hleads huser hfits hfree hcard]
  · obtain ⟨iv, -, hcreate⟩ := serve_create_eq_created hserve
    obtain ⟨card, hcard, hread⟩ := read_of_create hcreate
    refine ⟨oneCardMore_of_create hcreate, fun later entered => ?_⟩
    simp only [serve, verify_of_read (read_run hread later) hcard, Except.map]

/-- Among no files, `a` gets a card with the PIN `1234`. Whatever else is called for after that, this PIN is
accepted and `4321` is not. The name `a1` and a text of 16 bytes are refused. -/
theorem card_holds_its_pin_first :
    let store : CardStore := ⟨⟨"."⟩⟩
    let key := Bytes.zero 32
    let later : List Call := [.create key (.ok (Bytes.zero 16)) "b" "4321", .read "b"]
    (∃ files', store.serve {} (.create key (.ok (Bytes.zero 16)) "a" "1234") = (.ok .created, files') ∧
      (store.serve (store.run files' later) (.verify key "a" "1234")).1 = .ok (.verified true) ∧
      (store.serve (store.run files' later) (.verify key "a" "4321")).1 = .ok (.verified false)) ∧
    (∃ e, store.serve {} (.read "a1") = (.error e, {})) ∧
    ∃ e, store.serve {} (.create key (.ok (Bytes.zero 16)) "a" "0123456789abcdef") = (.error e, {}) := by
  intro store key later
  obtain ⟨-, -, hname, hlong, -, -, hcreate, -, hchecks⟩ := card_holds_its_pin store
  have hfits : store.Fits "a" := fits_of_short (by decide) (by decide)
  have hcreated := (hcreate {} key (Bytes.zero 16) "a" "1234" (by decide) (by decide)).2 []
    FileTree.leads_here hfits (by rfl)
  have hserve : store.serve {} (.create key (.ok (Bytes.zero 16)) "a" "1234") = (.ok .created, _) :=
    Prod.ext hcreated rfl
  have hverify := (hchecks _ _ _ _ _ _ hserve).2 later
  obtain ⟨e, he⟩ := hname (.read "a1") (by decide)
  obtain ⟨e', he'⟩ := hlong key (.ok (Bytes.zero 16)) "a" "0123456789abcdef" (by decide)
  exact ⟨⟨_, hserve, hverify "1234", hverify "4321"⟩, ⟨e, he {}⟩, e', he' {}⟩

end CardStore
end Cashpoint
