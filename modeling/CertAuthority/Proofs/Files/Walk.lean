import CertAuthority.Files.Tree
import Mathlib.Data.List.Basic
import Mathlib.Tactic.SplitIfs

/-!
# Walks in a tree that grows

A walk asks the tree about one place after another, and goes on only while
there is something. A tree that has everything another one has therefore leads
a walk that ends at an entry to the same place (`locate_extends`). A walk that
ends at a vacant name has asked about that name last, so putting a file or a
directory there makes it the end of the walk (`locate_set_vacant`). And a file
where there was nothing stops a walk where it would have stopped anyhow, so
that the places that walks lead to stay the same (`place?_locate_set_file`). A
directory in its stead would let walks pass that were refused before, and a
link would send them elsewhere.

All of this is by induction on legs and on walks (`leg_induction`,
`walk_induction`), with one case for each thing that a tree may have of a
name. A leg follows directories until it ends or comes to a link, and a walk
is made of legs, one for each link and no more than a file system follows. So
a statement about walks is proved of legs first, where a link is where the leg
turns off and nothing has to be said of what comes after it.

What a walk can end at in one tree is said once (`locate_isEndOf`): the entry
that is there, a name that nothing has, or a refusal, which is never the one
that something exists already. The writers depend on that last part, since
this fault is how they tell a target that is taken from one that cannot be
reached.

Putting something at a vacant place and taking it away again is no change
(`get?_erase_set`), by which a temporary file leaves no trace.
-/

namespace CertAuthority.Files

namespace Tree

variable {t t' : Tree}

/-! ## What is there

Most that is done to a tree adds to it. So trees are compared by what is in
them (`Extends`), and what is there after something was put somewhere is asked
of one place at a time. -/

/-- **A tree that has everything another one has**, as it is there. There may be
more in it, and the working directory is the same. -/
structure Extends (t t' : Tree) : Prop where
  /-- Relative paths start in the same directory. -/
  workingDirectory : t'.workingDirectory = t.workingDirectory
  /-- What is there is still there. -/
  get? : ∀ p e, t.get? p = some e → t'.get? p = some e

namespace Extends

theorem refl (t : Tree) : Extends t t := ⟨rfl, fun _ _ h => h⟩

theorem trans {t'' : Tree} (h : Extends t t') (h' : Extends t' t'') : Extends t t'' :=
  ⟨h'.workingDirectory.trans h.workingDirectory, fun p e hp => h'.get? p e (h.get? p e hp)⟩

/-- What is absent from the larger tree is absent from the smaller one, or it
would have been kept. -/
theorem get?_eq_none (h : Extends t t') {p : Place} (hp : t'.get? p = none) : t.get? p = none := by
  cases hq : t.get? p with
  | none => rfl
  | some e => exact absurd ((h.get? p e hq).symm.trans hp) (by simp)

end Extends

/-- **What is at a place after something was put somewhere**: that, if it was
here, and what there was before otherwise. -/
theorem get?_set (t : Tree) (p q : Place) (e : Entry) :
    (t.set p e).get? q = if q = p then some e else t.get? q := by
  split_ifs with h
  · rw [h, get?_set_self]
  · exact get?_set_ne t e h

/-- A tree with something at a place that was vacant has all it had. -/
theorem extends_set {p : Place} (e : Entry) (hp : t.get? p = none) : Extends t (t.set p e) := by
  refine ⟨rfl, fun q e' hq => ?_⟩
  rw [get?_set_ne t e (by rintro rfl; simp [hp] at hq), hq]

/-- Of two things put at one place the later one is there. -/
theorem set_set (t : Tree) (p : Place) (e e' : Entry) : (t.set p e).set p e' = t.set p e' := by
  simp [set, List.filter_filter]

/-- What is filtered out of a list of entries is not found in it. -/
theorem lookup_filter_self (l : List (Place × Entry)) (p : Place) :
    (l.filter fun x => x.1 != p).lookup p = none := by
  rw [List.lookup_eq_none_iff]
  intro x hx
  have hne := (List.mem_filter.1 hx).2
  rw [bne_iff_ne] at hne ⊢
  exact hne.symm

/-- **Putting an entry at a vacant place and taking it away** is no
change. -/
theorem get?_erase_set {p : Place} (e : Entry) (hp : t.get? p = none) (q : Place) :
    ((t.set p e).erase p).get? q = t.get? q := by
  by_cases hq : q = p
  · subst hq
    have hdefault : ¬ (q = [] ∨ q = t.workingDirectory) := by
      intro h
      rw [get?, if_pos h] at hp
      simp at hp
    rw [hp, get?, erase, lookup_filter_self]
    exact if_neg hdefault
  · rw [get?_erase_ne _ hq, get?_set_ne t e hq]

/-! ## One step of a leg

A leg is a walk up to the first link that is seen through. At each piece it
can do four things, and these are told apart once, so that whatever is proved
of legs later is proved by an induction with named cases and does not open the
definition again. -/

/-- A piece that is a name, and not too long for one. It need not be one that a
component may have: pieces come from the texts of paths and of links alike. -/
structure IsName (piece : List Char) : Prop where
  /-- It does not stay where it is. -/
  ne_dot : piece ≠ ['.']
  /-- It does not go up. -/
  ne_up : piece ≠ ['.', '.']
  /-- It is not too long. -/
  le : (String.ofList piece).utf8ByteSize ≤ longestName

section Step

variable (t : Tree) (follow : Bool) (place : Place) {piece : List Char}
  (rest : List (List Char))

/-- **What a leg does at a piece**: it stays, goes up, fails at a name that
is too long, or goes by the entry of that name. -/
theorem leg_cons_cases (piece : List Char) :
    piece = ['.'] ∨ piece = ['.', '.']
      ∨ (∀ (t : Tree) (follow : Bool) (place : Place) (rest : List (List Char)),
          t.leg follow place (piece :: rest) = .landed (.refused .nameTooLong))
      ∨ IsName piece := by
  by_cases hdot : piece = ['.']
  · exact Or.inl hdot
  by_cases hup : piece = ['.', '.']
  · exact Or.inr (Or.inl hup)
  by_cases hlong : longestName < (String.ofList piece).utf8ByteSize
  · refine Or.inr (Or.inr (Or.inl fun t follow place rest => ?_))
    rw [leg, if_neg hdot, if_neg hup]
    exact if_pos hlong
  · exact Or.inr (Or.inr (Or.inr ⟨hdot, hup, Nat.le_of_not_lt hlong⟩))

theorem leg_dot : t.leg follow place (['.'] :: rest) = t.leg follow place rest := by
  rw [leg, if_pos rfl]

/-- At two dots it goes up, from the top to the top. -/
theorem leg_up : t.leg follow place (['.', '.'] :: rest) = t.leg follow place.tail rest := by
  rw [leg, if_neg (by decide), if_pos rfl]

/-- At the end a leg is where it is. -/
theorem leg_nil : t.leg follow place []
    = .landed (.entry place ((t.get? place).getD (.directory plainDirectoryMode))) := rfl

/-- At a name a leg goes by the entry of that name. -/
theorem leg_of_isName (hp : IsName piece) : t.leg follow place (piece :: rest)
    = match t.get? (String.ofList piece :: place) with
      | none => .landed (if rest = [] then .vacant place (String.ofList piece) else .refused .notFound)
      | some (.directory _) => t.leg follow (String.ofList piece :: place) rest
      | some (.file mode content) =>
        .landed (if rest = [] then .entry (String.ofList piece :: place) (.file mode content)
          else .refused .notADirectory)
      | some (.link target) =>
        if rest = [] ∧ follow = false then
          .landed (.entry (String.ofList piece :: place) (.link target))
        else .turned place target rest := by
  rw [leg, if_neg hp.ne_dot, if_neg hp.ne_up]
  exact if_neg (Nat.not_lt.2 hp.le)

variable {t place}

/-- At a name that the directory does not have it ends: at a vacant name if that
was the last one, and with a fault if it was to go on below. -/
theorem leg_absent (hp : IsName piece) (hget : t.get? (String.ofList piece :: place) = none) :
    t.leg follow place (piece :: rest)
      = .landed (if rest = [] then .vacant place (String.ofList piece) else .refused .notFound) := by
  rw [leg_of_isName t follow place rest hp, hget]

theorem leg_directory {mode : Nat} (hp : IsName piece)
    (hget : t.get? (String.ofList piece :: place) = some (.directory mode)) :
    t.leg follow place (piece :: rest) = t.leg follow (String.ofList piece :: place) rest := by
  rw [leg_of_isName t follow place rest hp, hget]

/-- At a file it ends, with a fault if it was to go on. -/
theorem leg_file {mode : Nat} {content : Bytes} (hp : IsName piece)
    (hget : t.get? (String.ofList piece :: place) = some (.file mode content)) :
    t.leg follow place (piece :: rest)
      = .landed (if rest = [] then .entry (String.ofList piece :: place) (.file mode content)
          else .refused .notADirectory) := by
  rw [leg_of_isName t follow place rest hp, hget]

/-- At a link it turns off, unless the link is the last piece and not to be seen
through. -/
theorem leg_link {target : Path} (hp : IsName piece)
    (hget : t.get? (String.ofList piece :: place) = some (.link target)) :
    t.leg follow place (piece :: rest)
      = if rest = [] ∧ follow = false then
          .landed (.entry (String.ofList piece :: place) (.link target))
        else .turned place target rest := by
  rw [leg_of_isName t follow place rest hp, hget]

end Step

/-- **Induction on legs**: a leg at its end, a piece that stays or goes up or
is too long, and a name, by what the tree has of that name. -/
theorem leg_induction (t : Tree) {P : Place → List (List Char) → Prop}
    (nil : ∀ place, P place [])
    (dot : ∀ place rest, P place rest → P place (['.'] :: rest))
    (up : ∀ place rest, P place.tail rest → P place (['.', '.'] :: rest))
    (long : ∀ place piece rest, (∀ (t : Tree) (follow : Bool) (place : Place) rest,
        t.leg follow place (piece :: rest) = .landed (.refused .nameTooLong)) →
      P place (piece :: rest))
    (absent : ∀ place piece rest, IsName piece →
      t.get? (String.ofList piece :: place) = none → P place (piece :: rest))
    (directory : ∀ place piece rest mode, IsName piece →
      t.get? (String.ofList piece :: place) = some (.directory mode) →
      P (String.ofList piece :: place) rest → P place (piece :: rest))
    (file : ∀ place piece rest mode content, IsName piece →
      t.get? (String.ofList piece :: place) = some (.file mode content) → P place (piece :: rest))
    (link : ∀ place piece rest target, IsName piece →
      t.get? (String.ofList piece :: place) = some (.link target) → P place (piece :: rest))
    (place : Place) (pieces : List (List Char)) : P place pieces := by
  induction pieces generalizing place with
  | nil => exact nil place
  | cons piece rest ih =>
    rcases leg_cons_cases piece with rfl | rfl | hlong | hname
    · exact dot place rest (ih place)
    · exact up place rest (ih place.tail)
    · exact long place piece rest hlong
    · match hget : t.get? (String.ofList piece :: place) with
      | none => exact absent place piece rest hname hget
      | some (.directory mode) => exact directory place piece rest mode hname hget (ih _)
      | some (.file mode content) => exact file place piece rest mode content hname hget
      | some (.link target) => exact link place piece rest target hname hget

/-! ## Legs and walks in a larger tree

In a larger tree a leg goes by the same entries, and ends where it ended. If
it ended at a vacant name there may be something by now, so it may go on. A
walk is as many legs as there are links to be seen through, with a limit to
their number. -/

/-- **Where a leg leads in a larger tree**, by where it leads in the smaller
one. An end at an entry is an end at that place. A vacant name is an end still,
if there is a file or a directory now. Of a refusal nothing is said: what was
missing on the way may have come. -/
def Leg.LeadsOn (t : Tree) : Leg → Leg → Prop
  | .landed (.entry q _), m => ∃ e, m = .landed (.entry q e)
  | .landed (.vacant d n), m => ∀ e, t.get? (n :: d) = some e → (∀ target, e ≠ .link target) →
      m = .landed (.entry (n :: d) e)
  | .landed (.refused _), _ => True
  | .turned d target rest, m => m = .turned d target rest

/-- A walk to a name ends there if there is a file or a directory. -/
theorem leg_name {follow : Bool} {place : Place} {piece : List Char} {e : Entry}
    (hp : IsName piece) (hget : t.get? (String.ofList piece :: place) = some e)
    (hlink : ∀ target, e ≠ .link target) :
    t.leg follow place [piece] = .landed (.entry (String.ofList piece :: place) e) := by
  cases e with
  | directory mode =>
    rw [leg_directory follow [] hp hget, leg_nil, hget]
    rfl
  | file mode content =>
    rw [leg_file follow [] hp hget, if_pos rfl]
  | link target => exact absurd rfl (hlink target)

/-- **Legs lead on in a larger tree**, by induction on the leg in the smaller
one: at each name that it has passed there is what there was. -/
theorem leg_extends (h : Extends t t') (follow : Bool) (place : Place)
    (pieces : List (List Char)) :
    (t.leg follow place pieces).LeadsOn t' (t'.leg follow place pieces) := by
  induction place, pieces using leg_induction t with
  | nil place =>
    rw [leg_nil, leg_nil]
    exact ⟨_, rfl⟩
  | dot place rest ih =>
    rw [leg_dot, leg_dot]
    exact ih
  | up place rest ih =>
    rw [leg_up, leg_up]
    exact ih
  | long place piece rest hlong =>
    rw [hlong, hlong]
    trivial
  | absent place piece rest hname hget =>
    rw [leg_absent follow rest hname hget]
    split_ifs with hrest
    · subst hrest
      exact fun e he hlink => leg_name hname he hlink
    · trivial
  | directory place piece rest mode hname hget ih =>
    rw [leg_directory follow rest hname hget, leg_directory follow rest hname (h.get? _ _ hget)]
    exact ih
  | file place piece rest mode content hname hget =>
    rw [leg_file follow rest hname hget, leg_file follow rest hname (h.get? _ _ hget)]
    split_ifs
    · exact ⟨_, rfl⟩
    · trivial
  | link place piece rest target hname hget =>
    rw [leg_link follow rest hname hget, leg_link follow rest hname (h.get? _ _ hget)]
    split_ifs
    · exact ⟨_, rfl⟩
    · rfl

theorem walk_of_landed {follow : Bool} {links : Nat} {place : Place} {pieces : List (List Char)}
    {l : Landing} (h : t.leg follow place pieces = .landed l) :
    t.walk follow links place pieces = l := by
  rw [walk, h]

/-- A walk whose first leg turns off goes on from where the link is or from the
top, as long as it may follow another link. -/
theorem walk_of_turned {follow : Bool} {links : Nat} {place : Place} {pieces : List (List Char)}
    {d : Place} {target : Path} {rest : List (List Char)}
    (h : t.leg follow place pieces = .turned d target rest) :
    t.walk follow links place pieces
      = match links with
        | 0 => .refused .tooManyLinks
        | links + 1 => t.walk follow links (startOf target d) (piecesOf target ++ rest) := by
  cases links with
  | zero => rw [walk, h]
  | succ links => rw [walk, h]

/-- **Induction on walks**: a walk whose first leg is its last, a walk that
turns off and may follow no more links, and one that goes on. -/
theorem walk_induction (t : Tree) (follow : Bool) {P : Nat → Place → List (List Char) → Prop}
    (landed : ∀ links place pieces l, t.leg follow place pieces = .landed l → P links place pieces)
    (stuck : ∀ place pieces d target rest, t.leg follow place pieces = .turned d target rest →
      P 0 place pieces)
    (turned : ∀ links place pieces d target rest,
      t.leg follow place pieces = .turned d target rest →
      P links (startOf target d) (piecesOf target ++ rest) → P (links + 1) place pieces)
    (links : Nat) (place : Place) (pieces : List (List Char)) : P links place pieces := by
  induction links generalizing place pieces with
  | zero =>
    cases hl : t.leg follow place pieces with
    | landed l => exact landed _ _ _ _ hl
    | turned d target rest => exact stuck _ _ _ _ _ hl
  | succ links ih =>
    cases hl : t.leg follow place pieces with
    | landed l => exact landed _ _ _ _ hl
    | turned d target rest => exact turned _ _ _ _ _ _ hl (ih _ _)

/-- Where walks lead in a larger tree, as for legs. A walk that is refused in
the smaller tree may go anywhere in the larger one. -/
def Landing.LeadsOn (t : Tree) (l l' : Landing) : Prop :=
  (Leg.landed l).LeadsOn t (.landed l')

/-- A walk leads on if its first leg does and was the last. -/
theorem walk_leadsOn {follow : Bool} {links : Nat} {place : Place} {pieces : List (List Char)}
    {l : Landing} (h : (Leg.landed l).LeadsOn t' (t'.leg follow place pieces)) :
    l.LeadsOn t' (t'.walk follow links place pieces) := by
  cases l with
  | entry q e =>
    obtain ⟨e', he'⟩ := h
    rw [walk_of_landed he']
    exact ⟨e', rfl⟩
  | vacant d n =>
    intro e he hlink
    rw [walk_of_landed (h e he hlink)]
  | refused fault => trivial

/-- **Walks lead on in a larger tree.** The links on the way are still there, so
both walks turn off at the same places. -/
theorem walk_extends (h : Extends t t') (follow : Bool) (links : Nat) (place : Place)
    (pieces : List (List Char)) :
    (t.walk follow links place pieces).LeadsOn t' (t'.walk follow links place pieces) := by
  induction links, place, pieces using walk_induction t follow with
  | landed links place pieces l hl =>
    have hleg := leg_extends h follow place pieces
    rw [hl] at hleg
    rw [walk_of_landed hl]
    exact walk_leadsOn hleg
  | stuck place pieces d target rest hl =>
    rw [walk_of_turned hl]
    trivial
  | turned links place pieces d target rest hl ih =>
    have hleg := leg_extends h follow place pieces
    rw [hl] at hleg
    rw [walk_of_turned hl, walk_of_turned hleg]
    exact ih

/-- **A path leads where its walk leads**, or nowhere in any tree: with a NUL in
it, with no text, or with too much of it, it is refused before the first step.
Then nothing that the tree has can make a difference. -/
theorem locate_cases (p : Path) :
    (∀ (t : Tree) (follow : Bool), t.locate follow p
        = t.walk follow mostLinks (startOf p t.workingDirectory) (piecesOf p))
      ∨ ∃ fault, fault ≠ .alreadyExists ∧ ∀ (t : Tree) (follow : Bool),
          t.locate follow p = .refused fault := by
  by_cases hnul : hasNul p
  · exact Or.inr ⟨.nulInPath, by decide, fun t follow => if_pos hnul⟩
  by_cases hempty : p.text = ""
  · refine Or.inr ⟨.notFound, by decide, fun t follow => ?_⟩
    rw [locate, if_neg hnul, if_pos hempty]
  by_cases hlong : longestPath < p.text.utf8ByteSize
  · refine Or.inr ⟨.nameTooLong, by decide, fun t follow => ?_⟩
    rw [locate, if_neg hnul, if_neg hempty, if_pos hlong]
  · refine Or.inl fun t follow => ?_
    rw [locate, if_neg hnul, if_neg hempty, if_neg hlong]

/-- A path that leads to an entry has been walked. -/
theorem walk_of_locate {follow : Bool} {p : Path} {q : Place} {e : Entry}
    (h : t.locate follow p = .entry q e) :
    t.walk follow mostLinks (startOf p t.workingDirectory) (piecesOf p) = .entry q e := by
  unfold locate at h
  split_ifs at h
  exact h

/-- **Where a path leads in a larger tree.** -/
theorem locate_extends (h : Extends t t') (follow : Bool) (p : Path) :
    (t.locate follow p).LeadsOn t' (t'.locate follow p) := by
  rcases locate_cases p with hwalk | ⟨fault, -, hrefused⟩
  · rw [hwalk, hwalk, h.workingDirectory]
    exact walk_extends h follow _ _ _
  · rw [hrefused]
    trivial

/-! ## What a walk ends at

A walk ends at an entry, at a vacant name or nowhere. It is never nowhere
because something exists, and a vacant name is the last piece, unless a link
at the end was seen through. That is what a write has to know about the path
that it is given. -/

/-- **How a walk along pieces can end.** It is said relative to the tree and to
the pieces, the last of which may be the name of what is not there. -/
inductive Landing.IsEndOf (t : Tree) (follow : Bool) (pieces : List (List Char)) : Landing → Prop
  /-- At the entry that is there. -/
  | entry {q : Place} {e : Entry} (there : e = (t.get? q).getD (.directory plainDirectoryMode)) :
    IsEndOf t follow pieces (.entry q e)
  /-- At a name that nothing has. It is the last piece, or the one of a link
  at the end. -/
  | vacant {d : Place} {n : String} (absent : t.get? (n :: d) = none) (name : IsName n.toList)
      (last : follow = false → pieces.getLast? = some n.toList) :
    IsEndOf t follow pieces (.vacant d n)
  /-- Nowhere, but not because something exists. -/
  | refused {fault : Fault} (ne : fault ≠ .alreadyExists) : IsEndOf t follow pieces (.refused fault)

/-- **How a leg can end**: where walks do, or at a link, with the last of the
pieces still to be walked. -/
inductive Leg.IsEndOf (t : Tree) (follow : Bool) (pieces : List (List Char)) : Leg → Prop
  /-- The walk has ended. -/
  | landed {l : Landing} (ends : l.IsEndOf t follow pieces) : IsEndOf t follow pieces (.landed l)
  /-- The walk turns off. -/
  | turned {d : Place} {target : Path} {rest : List (List Char)}
      (more : follow = false → rest ≠ []) (suffix : rest <:+ pieces) :
    IsEndOf t follow pieces (.turned d target rest)

section Ends

variable {follow : Bool} {pieces pieces' : List (List Char)}

/-- Of the pieces only the last one matters. -/
theorem Landing.IsEndOf.of_last {l : Landing} (h : l.IsEndOf t follow pieces)
    (hlast : follow = false → ∀ piece, pieces.getLast? = some piece →
      pieces'.getLast? = some piece) : l.IsEndOf t follow pieces' := by
  cases h with
  | entry there => exact .entry there
  | vacant absent name last =>
    exact .vacant absent name fun hfollow => hlast hfollow _ (last hfollow)
  | refused ne => exact .refused ne

/-- What is an end of a walk along some pieces is one with a piece in front. -/
theorem Leg.IsEndOf.cons {m : Leg} (h : m.IsEndOf t follow pieces) (piece : List Char) :
    m.IsEndOf t follow (piece :: pieces) := by
  cases h with
  | landed ends => exact .landed (ends.of_last fun _ _ hlast => List.mem_getLast?_cons hlast)
  | turned more suffix => exact .turned more (suffix.trans (List.suffix_cons _ _))

variable (t follow)

/-- **Every leg ends so**, by induction on it. -/
theorem leg_isEndOf (place : Place) (pieces : List (List Char)) :
    (t.leg follow place pieces).IsEndOf t follow pieces := by
  induction place, pieces using leg_induction t with
  | nil place =>
    rw [leg_nil]
    exact .landed (.entry rfl)
  | dot place rest ih =>
    rw [leg_dot]
    exact ih.cons _
  | up place rest ih =>
    rw [leg_up]
    exact ih.cons _
  | long place piece rest hlong =>
    rw [hlong]
    exact .landed (.refused (by decide))
  | absent place piece rest hname hget =>
    rw [leg_absent follow rest hname hget]
    split_ifs with hrest
    · subst hrest
      have hpiece : (String.ofList piece).toList = piece := String.toList_ofList
      exact .landed (.vacant hget (by rwa [hpiece]) fun _ => by rw [hpiece]; rfl)
    · exact .landed (.refused (by decide))
  | directory place piece rest mode hname hget ih =>
    rw [leg_directory follow rest hname hget]
    exact ih.cons _
  | file place piece rest mode content hname hget =>
    rw [leg_file follow rest hname hget]
    split_ifs
    · exact .landed (.entry (by rw [hget]; rfl))
    · exact .landed (.refused (by decide))
  | link place piece rest target hname hget =>
    rw [leg_link follow rest hname hget]
    split_ifs with hend
    · exact .landed (.entry (by rw [hget]; rfl))
    · exact .turned (fun hfollow hrest => hend ⟨hrest, hfollow⟩) (List.suffix_cons _ _)

/-- **Every walk ends so.** With links to be seen through at the end, a vacant
name may be one that a link gives, and so it is said to be the last piece for
the other walks only. -/
theorem walk_isEndOf (links : Nat) (place : Place) (pieces : List (List Char)) :
    (t.walk follow links place pieces).IsEndOf t follow pieces := by
  induction links, place, pieces using walk_induction t follow with
  | landed links place pieces l hl =>
    rw [walk_of_landed hl]
    have hleg := leg_isEndOf t follow place pieces
    rw [hl] at hleg
    cases hleg with
    | landed ends => exact ends
  | stuck place pieces d target rest hl =>
    rw [walk_of_turned hl]
    exact .refused (by decide)
  | turned links place pieces d target rest hl ih =>
    rw [walk_of_turned hl]
    have hleg := leg_isEndOf t follow place pieces
    rw [hl] at hleg
    cases hleg with
    | turned more suffix =>
      -- The pieces of the link come before what is left, so the last piece is the same.
      obtain ⟨front, rfl⟩ := suffix
      refine ih.of_last fun hfollow piece hlast => ?_
      rw [List.getLast?_append_of_ne_nil _ (more hfollow)] at hlast ⊢
      exact hlast

/-- **What a path can lead to.** -/
theorem locate_isEndOf (p : Path) : (t.locate follow p).IsEndOf t follow (piecesOf p) := by
  rcases locate_cases p with hwalk | ⟨fault, hne, hrefused⟩
  · rw [hwalk]
    exact walk_isEndOf t follow _ _ _
  · rw [hrefused]
    exact .refused hne

end Ends

/-- **A path leads to the entry that is there.** There is none for the top,
which is a directory in every tree. -/
theorem entry_of_locate {follow : Bool} {p : Path} {q : Place} {e : Entry}
    (h : t.locate follow p = .entry q e) :
    e = (t.get? q).getD (.directory plainDirectoryMode) := by
  have hend := locate_isEndOf t follow p
  rw [h] at hend
  cases hend with
  | entry there => exact there

/-- **A vacant name is vacant**: there is no entry of that name. -/
theorem get?_of_locate_vacant {follow : Bool} {p : Path} {d : Place} {n : String}
    (h : t.locate follow p = .vacant d n) : t.get? (n :: d) = none := by
  have hend := locate_isEndOf t follow p
  rw [h] at hend
  cases hend with
  | vacant absent => exact absent

/-! ## Vacant names -/

/-- A leg that does not end at a link goes the same way with and without
seeing through links. -/
theorem leg_follow (follow : Bool) (place : Place) (pieces : List (List Char)) :
    t.leg follow place pieces = t.leg false place pieces
      ∨ ∃ q target, t.leg false place pieces = .landed (.entry q (.link target)) := by
  induction place, pieces using leg_induction t with
  | nil place =>
    rw [leg_nil, leg_nil]
    exact Or.inl rfl
  | dot place rest ih =>
    rw [leg_dot, leg_dot]
    exact ih
  | up place rest ih =>
    rw [leg_up, leg_up]
    exact ih
  | long place piece rest hlong =>
    rw [hlong, hlong]
    exact Or.inl rfl
  | absent place piece rest hname hget =>
    rw [leg_absent follow rest hname hget, leg_absent false rest hname hget]
    exact Or.inl rfl
  | directory place piece rest mode hname hget ih =>
    rw [leg_directory follow rest hname hget, leg_directory false rest hname hget]
    exact ih
  | file place piece rest mode content hname hget =>
    rw [leg_file follow rest hname hget, leg_file false rest hname hget]
    exact Or.inl rfl
  | link place piece rest target hname hget =>
    rw [leg_link follow rest hname hget, leg_link false rest hname hget]
    by_cases hrest : rest = []
    · exact Or.inr ⟨_, target, if_pos ⟨hrest, rfl⟩⟩
    · rw [if_neg (fun h => hrest h.1), if_neg (fun h => hrest h.1)]
      exact Or.inl rfl

/-- Walks do as well: that links are seen through at the end makes a difference
only where one is at the end. -/
theorem walk_follow (follow : Bool) (links : Nat) (place : Place) (pieces : List (List Char)) :
    t.walk follow links place pieces = t.walk false links place pieces
      ∨ ∃ q target, t.walk false links place pieces = .entry q (.link target) := by
  induction links, place, pieces using walk_induction t false with
  | landed links place pieces l hl =>
    rcases leg_follow (t := t) follow place pieces with heq | ⟨q, target, hq⟩
    · left
      rw [walk_of_landed hl, walk_of_landed (heq.trans hl)]
    · exact Or.inr ⟨q, target, walk_of_landed hq⟩
  | stuck place pieces d target rest hl =>
    rcases leg_follow (t := t) follow place pieces with heq | ⟨q, target, hq⟩
    · left
      rw [walk_of_turned hl, walk_of_turned (heq.trans hl)]
    · exact Or.inr ⟨q, target, walk_of_landed hq⟩
  | turned links place pieces d target rest hl ih =>
    rcases leg_follow (t := t) follow place pieces with heq | ⟨q, target, hq⟩
    · rw [walk_of_turned (heq.trans hl), walk_of_turned hl]
      exact ih
    · exact Or.inr ⟨q, target, walk_of_landed hq⟩

/-- A path that does not lead to a link leads to the same place when links
are seen through. -/
theorem locate_follow (follow : Bool) (p : Path) :
    t.locate follow p = t.locate false p
      ∨ ∃ q target, t.locate false p = .entry q (.link target) := by
  rcases locate_cases p with hwalk | ⟨fault, -, hrefused⟩
  · rw [hwalk, hwalk]
    exact walk_follow follow _ _ _
  · exact Or.inl ((hrefused t follow).trans (hrefused t false).symm)

/-- **Something put at the vacant name a path leads to** is what the path
leads to from then on, unless it is a link. -/
theorem locate_set_vacant {p : Path} {d : Place} {n : String} {e : Entry} (follow : Bool)
    (h : t.locate false p = .vacant d n) (hlink : ∀ target, e ≠ .link target) :
    (t.set (n :: d) e).locate follow p = .entry (n :: d) e := by
  have hext := extends_set e (get?_of_locate_vacant h)
  have hleads := locate_extends hext false p
  rw [h] at hleads
  have hfalse : (t.set (n :: d) e).locate false p = .entry (n :: d) e := by
    have hend := hleads e (get?_set_self t _ e) hlink
    exact Leg.landed.inj hend
  rcases locate_follow (t := t.set (n :: d) e) follow p with heq | ⟨q, target, hq⟩
  · exact heq.trans hfalse
  · rw [hfalse] at hq
    cases hq
    exact absurd rfl (hlink target)

/-! ## Files where there was nothing

A file where there was nothing is in nobody's way: a walk that came to the
vacant name comes to the file, and one that would have gone on below the name
was refused before and is refused now. So no path leads to another place than
it did. -/

/-- The place a walk ends at, if it is not refused. A vacant name is a place
too, the one that something put there would have. -/
def Landing.place? : Landing → Option Place
  | .entry q _ => some q
  | .vacant d n => some (n :: d)
  | .refused _ => none

/-- **Where a leg leads in a tree with one more file**, by where it leads
without: to the same place. -/
def Leg.SamePlace : Leg → Leg → Prop
  | .landed l, m => ∃ l', m = .landed l' ∧ l'.place? = l.place?
  | .turned d target rest, m => m = .turned d target rest

/-- A leg passes no file, so that one more file is passed by none. -/
theorem leg_set_file {q : Place} (hq : t.get? q = none) (mode : Nat) (content : Bytes)
    (follow : Bool) (place : Place) (pieces : List (List Char)) :
    (t.leg follow place pieces).SamePlace ((t.set q (.file mode content)).leg follow place pieces) := by
  have hext := extends_set (.file mode content) hq
  induction place, pieces using leg_induction t with
  | nil place =>
    rw [leg_nil, leg_nil]
    exact ⟨_, rfl, rfl⟩
  | dot place rest ih =>
    rw [leg_dot, leg_dot]
    exact ih
  | up place rest ih =>
    rw [leg_up, leg_up]
    exact ih
  | long place piece rest hlong =>
    rw [hlong, hlong]
    exact ⟨_, rfl, rfl⟩
  | absent place piece rest hname hget =>
    rw [leg_absent follow rest hname hget]
    -- The new file, or still nothing: both stop a walk here.
    by_cases hplace : String.ofList piece :: place = q
    · have hfile : (t.set q (.file mode content)).get? (String.ofList piece :: place)
          = some (.file mode content) := by rw [hplace, get?_set_self]
      rw [leg_file follow rest hname hfile]
      split_ifs
      · exact ⟨_, rfl, rfl⟩
      · exact ⟨_, rfl, rfl⟩
    · have hnone := (get?_set_ne t (.file mode content) hplace).trans hget
      rw [leg_absent follow rest hname hnone]
      exact ⟨_, rfl, rfl⟩
  | directory place piece rest mode' hname hget ih =>
    rw [leg_directory follow rest hname hget, leg_directory follow rest hname (hext.get? _ _ hget)]
    exact ih
  | file place piece rest mode' content' hname hget =>
    rw [leg_file follow rest hname hget, leg_file follow rest hname (hext.get? _ _ hget)]
    exact ⟨_, rfl, rfl⟩
  | link place piece rest target hname hget =>
    rw [leg_link follow rest hname hget, leg_link follow rest hname (hext.get? _ _ hget)]
    split_ifs
    · exact ⟨_, rfl, rfl⟩
    · rfl

/-- Nor is it by a walk, whose legs turn off at the links they turned off at. -/
theorem walk_set_file {q : Place} (hq : t.get? q = none) (mode : Nat) (content : Bytes)
    (follow : Bool) (links : Nat) (place : Place) (pieces : List (List Char)) :
    ((t.set q (.file mode content)).walk follow links place pieces).place?
      = (t.walk follow links place pieces).place? := by
  induction links, place, pieces using walk_induction t follow with
  | landed links place pieces l hl =>
    have hleg := leg_set_file hq mode content follow place pieces
    rw [hl] at hleg
    obtain ⟨l', hl', hplace⟩ := hleg
    rw [walk_of_landed hl, walk_of_landed hl', hplace]
  | stuck place pieces d target rest hl =>
    have hleg := leg_set_file hq mode content follow place pieces
    rw [hl] at hleg
    rw [walk_of_turned hl, walk_of_turned hleg]
  | turned links place pieces d target rest hl ih =>
    have hleg := leg_set_file hq mode content follow place pieces
    rw [hl] at hleg
    rw [walk_of_turned hl, walk_of_turned hleg]
    exact ih

/-- **A file where there was nothing** changes no place that a path leads
to. -/
theorem place?_locate_set_file {q : Place} (hq : t.get? q = none) (mode : Nat) (content : Bytes)
    (follow : Bool) (p : Path) :
    ((t.set q (.file mode content)).locate follow p).place? = (t.locate follow p).place? := by
  rcases locate_cases p with hwalk | ⟨fault, -, hrefused⟩
  · rw [hwalk, hwalk]
    exact walk_set_file hq mode content follow _ _ _
  · rw [hrefused, hrefused]

end Tree

end CertAuthority.Files
