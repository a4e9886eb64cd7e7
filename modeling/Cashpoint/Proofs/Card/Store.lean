/-
# Cards in their directory

What the card store does with the card of a user name, in a directory that is there:
a card is written to a place of its own if the path to it is not too long
(`create_of_free`, `create_of_long`), and a card that was written from a PIN is checked
by comparing texts (`verify_of_card`). In a directory whose own path has at most 3839
bytes the path to a card is never too long (`fits_of_short`).

Whatever the directory holds, a card that was written is read back (`read_of_create`),
and the cards before it stay what they were (`read_after_create`). The card of one user is
independent of those of the others: two directories that are the same to it (`SameCard`) stay
so when another's card is created (`SameCard.of_create`), and when this one is
(`SameCard.create`).
-/

import Cashpoint.Proofs.Card.Check
import Cashpoint.Proofs.Files.Create

namespace Cashpoint
namespace CardStore

/-- Whether the path of a user's card is short enough to be followed. -/
def Fits (store : CardStore) (user : String) : Prop :=
  (store.directory.join (fileName user)).text.utf8ByteSize ≤ FileTree.longestPath

instance (store : CardStore) (user : String) : Decidable (store.Fits user) := inferInstanceAs (Decidable (_ ≤ _))

/-- Whether a user's card fits, as a test. -/
def fits (store : CardStore) (user : String) : Bool := decide (store.Fits user)

/-- The name of a card file is not too long for a directory. -/
theorem size_fileName {user : String} (h : Credential.isUserName user = true) :
    (fileName user).utf8ByteSize ≤ 255 := by
  have hlen := Credential.length_userName_le h
  have hsize := Utf8.utf8ByteSize_of_ascii (Text.isAscii_userName h)
  have hcard : ".card".utf8ByteSize = 5 := by decide
  simp only [Credential.longestUserName] at hlen
  rw [fileName, String.utf8ByteSize_append, hsize, hcard]
  omega

/-- Different users have different files. -/
theorem fileName_inj {user other : String} (h : fileName user = fileName other) : user = other := by
  have hlist : user.toList ++ ".card".toList = other.toList ++ ".card".toList := by
    rw [← String.toList_append, ← String.toList_append]
    exact congrArg String.toList h
  exact String.toList_inj.1 (List.append_cancel_right hlist)

/-- A user name makes a file name. -/
theorem isFileName_fileName {user : String} (h : Credential.isUserName user = true) :
    IsFileName (fileName user) := by
  have hlist : (fileName user).toList = user.toList ++ ".card".toList := String.toList_append ..
  have hletter : ∀ c ∈ user.toList, c.isAlpha = true := fun c hc => Credential.isAlpha_of_mem_userName h hc
  have hlong : 5 < (fileName user).toList.length := by
    have hpos := List.length_pos_iff.2 (Credential.isWord_userName h).1
    have hcard : ".card".toList.length = 5 := by decide
    rw [hlist, List.length_append, hcard]
    omega
  exact {
    noSlash := by
      rw [hlist, List.mem_append]
      rintro (hc | hc)
      · exact absurd (hletter _ hc) (by decide)
      · exact absurd hc (by decide)
    noZero := by
      rw [hlist, List.mem_append]
      rintro (hc | hc)
      · exact absurd (hletter _ hc) (by decide)
      · exact absurd hc (by decide)
    ne_empty := by
      intro heq
      rw [heq] at hlong
      exact absurd hlong (by decide)
    ne_dot := by
      intro heq
      rw [heq] at hlong
      exact absurd hlong (by decide)
    ne_dots := by
      intro heq
      rw [heq] at hlong
      exact absurd hlong (by decide)
    size_le := size_fileName h }

/-- In a directory with a short path every card fits. -/
theorem fits_of_short {store : CardStore} (hshort : store.directory.text.utf8ByteSize ≤ 3839) {user : String}
    (h : Credential.isUserName user = true) : store.Fits user := by
  have hname := size_fileName h
  have hjoin := store.directory.size_join_le (fileName user)
  simp only [Fits, FileTree.longestPath]
  omega

variable {store : CardStore} {t : FileTree} {place : Location} {user pin : String}

/-- The card of a user stands in the directory, under the name of the user. -/
theorem path_eq (huser : Credential.isUserName user = true) :
    store.path user = .ok (store.directory.join (fileName user)) := by
  rw [path, if_pos huser]

/-- Only a user name has a path. -/
theorem path_eq_ok {p : Path} (h : store.path user = .ok p) :
    Credential.isUserName user = true ∧ p = store.directory.join (fileName user) := by
  unfold path at h
  split at h
  · rename_i huser
    exact ⟨huser, (Except.ok.inj h).symm⟩
  · simp at h

/-- The path of a card in a directory that is not too deep can be used. -/
theorem checkPath_of_fits (hleads : t.Leads store.directory place)
    (huser : Credential.isUserName user = true) (hfits : store.Fits user) :
    FileTree.checkPath (store.directory.join (fileName user)) = .ok () := by
  rw [FileTree.checkPath_join hleads.checked (isFileName_fileName huser), if_neg (Nat.not_lt.2 hfits)]

/-- **A new card is written to its place.** -/
theorem create_of_card (hleads : t.Leads store.directory place) (huser : Credential.isUserName user = true)
    (hfits : store.Fits user) (hfree : t.lookup (place ++ [fileName user]) = none) {pinKey : Bytes 32} {iv : Block}
    {card : Card} (hcard : Card.ofPin pinKey iv pin = .ok card) :
    store.create t pinKey iv user pin = .ok (t.put (place ++ [fileName user]) (.file card.toBytes)) := by
  have hcreate := hleads.reaches.createFile_join (isFileName_fileName huser)
    (checkPath_of_fits hleads huser hfits) hfree card.toBytes
  simp only [create, path_eq huser, hcard, hcreate, bind, Except.bind, pure, Except.pure]

/-- Where no card is, one is made from the PIN. -/
theorem create_of_free (hleads : t.Leads store.directory place) (huser : Credential.isUserName user = true)
    (hpin : Credential.isPin pin = true) (hfits : store.Fits user)
    (hfree : t.lookup (place ++ [fileName user]) = none) (pinKey : Bytes 32) (iv : Block) :
    ∃ card, Card.ofPin pinKey iv pin = .ok card ∧
      store.create t pinKey iv user pin = .ok (t.put (place ++ [fileName user]) (.file card.toBytes)) := by
  obtain ⟨card, hcard⟩ := Card.exists_ofPin hpin pinKey iv
  exact ⟨card, hcard, create_of_card hleads huser hfits hfree hcard⟩

/-- **No card is written to a path that is too long.** -/
theorem create_of_long (hleads : t.Leads store.directory place) (huser : Credential.isUserName user = true)
    (hfits : ¬ store.Fits user) (pinKey : Bytes 32) (iv : Block) :
    ∃ e, store.create t pinKey iv user pin = .error e := by
  have hlong : FileTree.checkPath (store.directory.join (fileName user)) = .error .invalidFilename := by
    rw [FileTree.checkPath_join hleads.checked (isFileName_fileName huser), if_pos (Nat.not_le.1 hfits)]
  have hslash := Path.endsInSlash_join store.directory (isFileName_fileName huser).toIsName
  cases hcard : Card.ofPin pinKey iv pin with
  | error e => exact ⟨e, by simp only [create, path_eq huser, hcard, bind, Except.bind]⟩
  | ok card =>
    have hcreate := FileTree.createFile_of_checkPath (t := t) hlong hslash card.toBytes
    refine ⟨.ofKind .invalidFilename, ?_⟩
    simp only [create, path_eq huser, hcard, hcreate, bind, Except.bind, throw, throwThe, MonadExceptOf.throw]

/-- **The check at a card is a comparison with the PIN it was made from.** -/
theorem verify_of_read {pinKey : Bytes 32} {iv : Block} {card : Card}
    (hread : store.read t user = .ok card) (hcard : Card.ofPin pinKey iv pin = .ok card) (entered : String) :
    store.verify t pinKey user entered = .ok (decide (entered = pin)) := by
  have hverify : card.verify pinKey entered = decide (entered = pin) := by
    rw [Bool.eq_iff_iff, decide_eq_true_iff]
    exact Card.verify_iff hcard entered
  simp only [verify, hread, hverify, bind, Except.bind, pure, Except.pure]

/-- The PIN that a card was made from passes, and no other. -/
theorem verify_of_card (hleads : t.Leads store.directory place) (huser : Credential.isUserName user = true)
    (hfits : store.Fits user) {pinKey : Bytes 32} {iv : Block} {card : Card}
    (hcard : Card.ofPin pinKey iv pin = .ok card)
    (hfile : t.lookup (place ++ [fileName user]) = some (.file card.toBytes)) (entered : String) :
    store.verify t pinKey user entered = .ok (decide (entered = pin)) := by
  have hfound := hleads.read_join (isFileName_fileName huser) (checkPath_of_fits hleads huser hfits) hfile
  have hread : store.read t user = .ok card := by
    simp only [read, path_eq huser, hfound, Card.ofBytes?_toBytes, bind, Except.bind, pure, Except.pure]
  exact verify_of_read hread hcard entered

/-! ## In any directory -/

/-- **When a card can be read**: the user name is one, and its file holds the card. -/
theorem read_eq_ok_iff {card : Card} :
    store.read t user = .ok card ↔ Credential.isUserName user = true ∧
      ∃ content, t.read (store.directory.join (fileName user)) = .ok content ∧ Card.ofBytes? content = some card := by
  unfold read path
  cases huser : Credential.isUserName user with
  | false => simp [bind, Except.bind]
  | true =>
    cases hread : t.read (store.directory.join (fileName user)) with
    | error kind => cases kind <;> simp [bind, Except.bind, throw, throwThe, MonadExceptOf.throw, hread]
    | ok content =>
      cases hcard : Card.ofBytes? content <;>
        simp [bind, Except.bind, pure, Except.pure, throw, throwThe, MonadExceptOf.throw, hread, hcard]

/-- **What a card is made of**, and where it is written. -/
theorem create_eq_ok {t' : FileTree} {pinKey : Bytes 32} {iv : Block}
    (h : store.create t pinKey iv user pin = .ok t') :
    Credential.isUserName user = true ∧ ∃ card, Card.ofPin pinKey iv pin = .ok card ∧
      t.createFile (store.directory.join (fileName user)) card.toBytes = .ok t' := by
  unfold create path at h
  cases huser : Credential.isUserName user with
  | false => simp [huser, bind, Except.bind] at h
  | true =>
    cases hcard : Card.ofPin pinKey iv pin with
    | error e => simp [huser, hcard, bind, Except.bind] at h
    | ok card =>
      refine ⟨rfl, card, rfl, ?_⟩
      cases hcreate : t.createFile (store.directory.join (fileName user)) card.toBytes with
      | error kind =>
        cases kind <;>
          simp [huser, hcard, hcreate, bind, Except.bind, throw, throwThe, MonadExceptOf.throw] at h
      | ok files => simpa [huser, hcard, hcreate, bind, Except.bind, pure, Except.pure] using h

/-- **A new card is one file more**, at a free place directly inside the directory. -/
theorem create_eq_put {t' : FileTree} {pinKey : Bytes 32} {iv : Block}
    (h : store.create t pinKey iv user pin = .ok t') :
    ∃ folder card, t.walk (t.start store.directory) store.directory.steps = .ok folder ∧
      t.lookup folder = some .directory ∧ t.lookup (folder ++ [fileName user]) = none ∧
      t' = t.put (folder ++ [fileName user]) (.file (Card.toBytes card)) := by
  obtain ⟨huser, card, -, hcreate⟩ := create_eq_ok h
  obtain ⟨folder, hwalk, hfolder, hfree, hput⟩ :=
    FileTree.createFile_join_eq_ok (isFileName_fileName huser) hcreate
  exact ⟨folder, card, hwalk, hfolder, hfree, hput⟩

/-- **A new card is read back**, whatever was in the directory. -/
theorem read_of_create {t' : FileTree} {pinKey : Bytes 32} {iv : Block}
    (h : store.create t pinKey iv user pin = .ok t') :
    ∃ card, Card.ofPin pinKey iv pin = .ok card ∧ store.read t' user = .ok card := by
  obtain ⟨huser, card, hcard, hcreate⟩ := create_eq_ok h
  exact ⟨card, hcard,
    read_eq_ok_iff.2 ⟨huser, card.toBytes, FileTree.read_of_createFile hcreate, Card.ofBytes?_toBytes card⟩⟩

/-- **A new card leaves every card that could be read as it was.** -/
theorem read_after_create {t' : FileTree} {pinKey : Bytes 32} {iv : Block}
    (h : store.create t pinKey iv user pin = .ok t') {other : String} {old : Card}
    (hold : store.read t other = .ok old) : store.read t' other = .ok old := by
  obtain ⟨-, card, -, hcreate⟩ := create_eq_ok h
  obtain ⟨hother, content, hread, hcontent⟩ := read_eq_ok_iff.1 hold
  exact read_eq_ok_iff.2 ⟨hother, content, FileTree.read_after_createFile hcreate hread, hcontent⟩

/-! ## The card of one user -/

/-- Two trees are the same to the card of a user: its path leads to the same in both, and is free in both
or in neither. -/
structure SameCard (store : CardStore) (t t' : FileTree) (user : String) : Prop where
  resolve_eq : ∀ p, store.path user = .ok p → t.resolve p = t'.resolve p
  vacancy_eq : ∀ p, store.path user = .ok p → t.vacancy p = t'.vacancy p

namespace SameCard

variable {t' t'' : FileTree} {other : String} {pinKey : Bytes 32} {iv : Block}

/-- A card is the same in a tree as in itself. -/
theorem refl (store : CardStore) (t : FileTree) (user : String) : store.SameCard t t user :=
  ⟨fun _ _ => rfl, fun _ _ => rfl⟩

/-- The card is the same in both trees, whichever comes first. -/
theorem symm (h : store.SameCard t t' user) : store.SameCard t' t user where
  resolve_eq p hp := (h.resolve_eq p hp).symm
  vacancy_eq p hp := (h.vacancy_eq p hp).symm

/-- A card that stays the same twice stays the same. -/
theorem trans (h : store.SameCard t t' user) (h' : store.SameCard t' t'' user) : store.SameCard t t'' user where
  resolve_eq p hp := (h.resolve_eq p hp).trans (h'.resolve_eq p hp)
  vacancy_eq p hp := (h.vacancy_eq p hp).trans (h'.vacancy_eq p hp)

/-- The card is the same where the directory leads to the same entry of its name. -/
theorem of_sameUnder (h : t.SameUnder t' store.directory (fileName user)) : store.SameCard t t' user := by
  have hpath {p : Path} (hp : store.path user = .ok p) :
      t.resolve p = t'.resolve p ∧ t.vacancy p = t'.vacancy p := by
    obtain ⟨huser, rfl⟩ := path_eq_ok hp
    exact h.join_congr (isFileName_fileName huser)
  exact ⟨fun p hp => (hpath hp).1, fun p hp => (hpath hp).2⟩

/-- The card is the same where its directory is reached and holds the same entry for it. -/
theorem of_reaches (h : t.Reaches store.directory place) (h' : t'.Reaches store.directory place)
    (hsame : t.lookup (place ++ [fileName user]) = t'.lookup (place ++ [fileName user])) :
    store.SameCard t t' user :=
  of_sameUnder (h.sameUnder h' hsame)

/-- The same card reads the same. -/
theorem read_eq (h : store.SameCard t t' user) : store.read t user = store.read t' user := by
  unfold read
  cases hpath : store.path user with
  | error e => rfl
  | ok p => simp only [bind, Except.bind, FileTree.read, h.resolve_eq p hpath]

/-- The same card accepts the same PINs. -/
theorem verify_eq (h : store.SameCard t t' user) (pinKey : Bytes 32) (pin : String) :
    store.verify t pinKey user pin = store.verify t' pinKey user pin := by
  rw [verify, verify, h.read_eq]

/-- **The card of somebody else** leaves a user's as it is. -/
theorem of_create (h : store.create t pinKey iv other pin = .ok t') (hne : other ≠ user) :
    store.SameCard t t' user := by
  obtain ⟨folder, card, hwalk, hfolder, hfree, rfl⟩ := create_eq_put h
  have hreaches : t.Reaches store.directory folder := ⟨hwalk, hfolder⟩
  have hloc : folder ++ [fileName other] ≠ [] := by simp
  have hother : folder ++ [fileName other] ≠ folder ++ [fileName user] := fun heq =>
    hne (fileName_inj (List.singleton_inj.1 (List.append_cancel_left heq)))
  refine of_reaches hreaches (hreaches.put hloc hfree _) ?_
  rw [FileTree.lookup_put hloc, if_neg hother]

/-- **A user's card is created in both or in neither**, and is the same after it. -/
theorem create (h : store.SameCard t t' user) (pinKey : Bytes 32) (iv : Block) (pin : String) :
    (∃ e, store.create t pinKey iv user pin = .error e ∧ store.create t' pinKey iv user pin = .error e) ∨
      ∃ after after', store.create t pinKey iv user pin = .ok after ∧
        store.create t' pinKey iv user pin = .ok after' ∧ store.SameCard after after' user := by
  unfold CardStore.create
  cases hpath : store.path user with
  | error e => exact Or.inl ⟨e, rfl, rfl⟩
  | ok p =>
    cases hcard : Card.ofPin pinKey iv pin with
    | error e => exact Or.inl ⟨e, rfl, rfl⟩
    | ok card =>
      obtain ⟨huser, rfl⟩ := path_eq_ok hpath
      simp only [bind, Except.bind]
      rcases FileTree.createFile_join_congr (isFileName_fileName huser) (h.vacancy_eq _ hpath) card.toBytes with
        ⟨kind, hcreate, hcreate'⟩ | ⟨after, after', folder, hcreate, hcreate', hreaches, hreaches', hsame⟩
      · rw [hcreate, hcreate']
        cases kind <;> exact Or.inl ⟨_, rfl, rfl⟩
      · rw [hcreate, hcreate']
        exact Or.inr ⟨after, after', rfl, rfl, of_reaches hreaches hreaches' hsame⟩

end SameCard
end CardStore
end Cashpoint
