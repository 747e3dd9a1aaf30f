import Mathlib.Data.List.TakeWhile
import RamlDoc.Proofs.Entering

/-!
# Paths relative to a file

Paths are joined as texts, and nothing in them is normalised. Still, where a path leads to a file, a
target relative to that path leads to what is found from the directory of the file on, however the
path is spelled (`FileSystem.locate?_join`).
-/

namespace RamlDoc

theorem Text.splitOn_append_mark (separator : Char) (before after : List Char) :
    splitOn separator (before ++ separator :: after) =
      splitOn separator before ++ splitOn separator after := by
  induction before with
  | nil => simp [splitOn]
  | cons c before ih =>
    by_cases hc : c = separator
    · simp [splitOn, hc, ih]
    · obtain ⟨piece, pieces, hpieces⟩ :=
        List.exists_cons_of_ne_nil (splitOn_ne_nil separator before)
      simp [splitOn, hc, ih, hpieces]

namespace Path

theorem pieces_append_slash (before after : String) :
    (Path.mk (before ++ "/" ++ after)).pieces =
      (Path.mk before).pieces ++ (Path.mk after).pieces := by
  have htext : (before ++ "/" ++ after).toList = before.toList ++ '/' :: after.toList := by simp
  simp only [pieces, htext, Text.splitOn_append_mark, List.map_append]

theorem not_mem_toList_of_mem_pieces {path : Path} {piece : String} (h : piece ∈ path.pieces) :
    '/' ∉ piece.toList := by
  obtain ⟨characters, hcharacters, rfl⟩ := List.mem_map.1 h
  rw [String.toList_ofList]
  exact Text.not_mem_of_mem_splitOn hcharacters

/-- The pieces between slashes make up the path again. -/
theorem pieces_joined {front : List String} (hne : front ≠ [])
    (h : ∀ piece ∈ front, '/' ∉ piece.toList) :
    (Path.mk (String.ofList (Text.joinWith ['/'] (front.map String.toList)))).pieces = front := by
  have hslash : ∀ piece ∈ front.map String.toList, '/' ∉ piece := by
    intro characters hcharacters
    obtain ⟨piece, hpiece, rfl⟩ := List.mem_map.1 hcharacters
    exact h piece hpiece
  rw [pieces, String.toList_ofList, Text.splitOn_joinWith (by simpa using hne) hslash,
    List.map_map]
  simp

/-- Dropping idle pieces from the end leaves a list of pieces that ends in one that is not idle. -/
theorem exists_idle_of_dropIdle (pieces : List String) :
    ∃ idles, pieces = (dropIdle pieces.reverse).reverse ++ idles ∧
      ∀ piece ∈ idles, isIdle piece := by
  refine ⟨(pieces.reverse.takeWhile isIdle).reverse, ?_, ?_⟩
  · have h : (pieces.reverse.takeWhile isIdle ++ dropIdle pieces.reverse).reverse =
        pieces.reverse.reverse := congrArg List.reverse List.takeWhile_append_dropWhile
    rw [List.reverse_append, List.reverse_reverse] at h
    exact h.symm
  · intro piece hpiece
    exact List.mem_takeWhile_imp (List.mem_reverse.1 hpiece)

theorem isIdle_of_head?_dropIdle {pieces : List String} {piece : String}
    (h : piece ∈ (dropIdle pieces).head?) : isIdle piece = false := by
  rw [Option.mem_def] at h
  have := List.head?_dropWhile_not isIdle pieces
  rw [← dropIdle, h] at this
  exact this

/-- The text of the pieces in front of the last part. -/
def directoryOf (path : Path) (front : List String) : Path :=
  ⟨if path.isAbsolute && front.isEmpty then "/"
    else String.ofList (Text.joinWith ['/'] (front.map String.toList))⟩

/-- A path with a part that leads on, split at the last such part. -/
theorem exists_parent {path : Path} (h : ∃ piece ∈ path.pieces, isIdle piece = false) :
    ∃ front between name behind, path.pieces = front ++ between ++ name :: behind ∧
      (∀ piece ∈ between, isIdle piece) ∧ (∀ piece ∈ behind, isIdle piece) ∧
      isIdle name = false ∧ (∀ last ∈ front.getLast?, isIdle last = false) ∧
      path.parent? = some (path.directoryOf front) := by
  obtain ⟨behind, hpieces, hbehind⟩ := exists_idle_of_dropIdle path.pieces
  cases hparts : dropIdle path.pieces.reverse with
  | nil =>
    -- all pieces would be idle
    rw [hparts] at hpieces
    obtain ⟨piece, hpiece, hidle⟩ := h
    rw [hpieces] at hpiece
    exact absurd (hbehind piece hpiece) (by simp [hidle])
  | cons name before =>
    obtain ⟨between, hbefore, hbetween⟩ := exists_idle_of_dropIdle before.reverse
    rw [List.reverse_reverse] at hbefore
    refine ⟨(dropIdle before).reverse, between, name, behind, ?_, hbetween, hbehind, ?_, ?_, ?_⟩
    · rw [← hbefore, hpieces, hparts]
      simp
    · exact isIdle_of_head?_dropIdle (by rw [hparts]; rfl)
    · intro last hlast
      rw [List.getLast?_reverse] at hlast
      exact isIdle_of_head?_dropIdle hlast
    · rw [parent?, hparts]
      simp [directoryOf]

/-- The last piece of a path that is empty or ends in a slash is empty. -/
theorem exists_idle_last {path : Path}
    (h : path.text.isEmpty || path.text.toList.getLast? = some '/') :
    ∃ last ∈ path.pieces.getLast?, isIdle last := by
  obtain ⟨text⟩ := path
  obtain hempty | hslash := Bool.or_eq_true_iff.1 h
  · obtain rfl := String.isEmpty_iff.1 hempty
    exact ⟨"", rfl, rfl⟩
  · obtain ⟨before, htext⟩ := List.getLast?_eq_some_iff.1 (of_decide_eq_true hslash)
    have hsplit : text = String.ofList before ++ "/" ++ "" := by
      rw [← String.ofList_toList (s := text), htext]
      simp
    rw [hsplit, pieces_append_slash]
    exact ⟨"", by simp [pieces, Text.splitOn], rfl⟩

/-- A target behind the pieces in front of the last part. A slash at the start, which is an idle
piece, may come first. -/
theorem pieces_join_directoryOf (path : Path) {front : List String}
    (hslash : ∀ piece ∈ front, '/' ∉ piece.toList)
    (hlast : ∀ last ∈ front.getLast?, isIdle last = false) {target : String}
    (htarget : (Path.mk target).isAbsolute = false) :
    ∃ lead, (∀ piece ∈ lead, isIdle piece) ∧
      ((path.directoryOf front).join target).pieces =
        lead ++ (front ++ (Path.mk target).pieces) := by
  rw [join, if_neg (Bool.eq_false_iff.1 htarget)]
  cases front with
  | nil =>
    cases habsolute : path.isAbsolute with
    | false =>
      have hdirectory : path.directoryOf [] = ⟨""⟩ := by
        simp [directoryOf, habsolute, Text.joinWith]
      refine ⟨[], by simp, ?_⟩
      rw [hdirectory]
      simp
    | true =>
      have hdirectory : path.directoryOf [] = ⟨"/"⟩ := by simp [directoryOf, habsolute]
      refine ⟨[""], by simp [isIdle], ?_⟩
      rw [hdirectory, if_pos (by decide)]
      exact pieces_append_slash "" target
  | cons piece front =>
    have hdirectory : path.directoryOf (piece :: front) =
        ⟨String.ofList (Text.joinWith ['/'] ((piece :: front).map String.toList))⟩ := by
      simp [directoryOf]
    have hpieces : (path.directoryOf (piece :: front)).pieces = piece :: front := by
      rw [hdirectory]
      exact pieces_joined (List.cons_ne_nil _ _) hslash
    refine ⟨[], by simp, ?_⟩
    split
    next hopen =>
      -- the text would end in an empty piece
      obtain ⟨last, hlast', hidle⟩ := exists_idle_last hopen
      rw [hpieces] at hlast'
      exact absurd hidle (by simp [hlast last hlast'])
    next => rw [pieces_append_slash, hpieces, List.nil_append]

end Path

namespace FileSystem

variable {files : FileSystem} {location : Location}

/-- Where a path goes on, it goes on from a directory. -/
theorem directory_of_follow?_cons {piece : String} {pieces : List String} {reached : Location}
    (h : files.follow? location (piece :: pieces) = some reached) :
    files.entry? location = some .directory := by
  rw [follow?] at h
  split at h
  next hdirectory => exact hdirectory
  next => cases h

theorem follow?_cons (hdirectory : files.entry? location = some .directory) (piece : String)
    (pieces : List String) :
    files.follow? location (piece :: pieces) =
      if Path.isIdle piece then files.follow? location pieces
      else if piece = ".." then files.follow? location.dropLast pieces
      else files.follow? (location ++ [piece]) pieces := by
  rw [follow?, hdirectory]

theorem follow?_of_entry?_eq_none (h : files.entry? location = none) (pieces : List String) :
    files.follow? location pieces = none := by
  cases pieces with
  | nil => rw [follow?, h, Option.map_none]
  | cons piece pieces =>
    rw [follow?]
    split
    next hdirectory =>
      rw [h] at hdirectory
      cases hdirectory
    next => rfl

theorem follow?_append (files : FileSystem) (location : Location) (first second : List String) :
    files.follow? location (first ++ second) =
      (files.follow? location first).bind fun inner => files.follow? inner second := by
  induction first generalizing location with
  | nil =>
    cases hentry : files.entry? location with
    | none =>
      rw [List.nil_append, follow?_of_entry?_eq_none hentry, follow?_of_entry?_eq_none hentry]
      rfl
    | some entry =>
      rw [follow?, hentry]
      rfl
  | cons piece first ih =>
    by_cases hdirectory : files.entry? location = some .directory
    · rw [List.cons_append, follow?_cons hdirectory, follow?_cons hdirectory]
      split
      · exact ih location
      · split
        · exact ih location.dropLast
        · exact ih (location ++ [piece])
    · cases hfirst : files.follow? location (piece :: first) with
      | none =>
        cases hboth : files.follow? location (piece :: first ++ second) with
        | none => rfl
        | some reached => exact absurd (directory_of_follow?_cons hboth) hdirectory
      | some reached => exact absurd (directory_of_follow?_cons hfirst) hdirectory

theorem follow?_of_idle {idles : List String} (hidle : ∀ piece ∈ idles, Path.isIdle piece)
    {reached : Location} (h : files.follow? location idles = some reached) :
    reached = location := by
  induction idles with
  | nil =>
    obtain ⟨entry, -, rfl⟩ := Option.map_eq_some_iff.1 h
    rfl
  | cons piece idles ih =>
    obtain ⟨hpiece, hidles⟩ := List.forall_mem_cons.1 hidle
    rw [follow?_cons (directory_of_follow?_cons h), if_pos hpiece] at h
    exact ih hidles h

/-- Idle pieces at the start of a path may be left out. -/
theorem follow?_idle_append {idles : List String} (hidle : ∀ piece ∈ idles, Path.isIdle piece)
    (hdirectory : files.entry? location = some .directory) (pieces : List String) :
    files.follow? location (idles ++ pieces) = files.follow? location pieces := by
  induction idles with
  | nil => rfl
  | cons piece idles ih =>
    obtain ⟨hpiece, hidles⟩ := List.forall_mem_cons.1 hidle
    rw [List.cons_append, follow?_cons hdirectory, if_pos hpiece, ih hidles]

/-- All that lies around a location is a directory. -/
def Surrounded (files : FileSystem) (location : Location) : Prop :=
  ∀ outer name inner, location = outer ++ name :: inner → files.entry? outer = some .directory

theorem Surrounded.dropLast (h : files.Surrounded location) :
    files.Surrounded location.dropLast := by
  intro outer name inner hsplit
  have hne : location ≠ [] := by
    rintro rfl
    simp at hsplit
  refine h outer name (inner ++ [location.getLast hne]) ?_
  rw [← List.cons_append, ← List.append_assoc, ← hsplit, List.dropLast_concat_getLast]

theorem Surrounded.append (h : files.Surrounded location)
    (hdirectory : files.entry? location = some .directory) (name : String) :
    files.Surrounded (location ++ [name]) := by
  intro outer next inner hsplit
  obtain rfl | ⟨inner, last, rfl⟩ := inner.eq_nil_or_concat
  · obtain ⟨rfl, -⟩ := List.append_inj' hsplit rfl
    exact hdirectory
  · refine h outer next inner ?_
    rw [List.concat_eq_append, ← List.cons_append, ← List.append_assoc] at hsplit
    exact (List.append_inj' hsplit rfl).1

/-- The directory around a directory. -/
theorem Surrounded.entry?_dropLast (h : files.Surrounded location)
    (hdirectory : files.entry? location = some .directory) :
    files.entry? location.dropLast = some .directory := by
  by_cases hne : location = []
  · rw [hne] at hdirectory ⊢
    exact hdirectory
  · exact h location.dropLast (location.getLast hne) [] (List.dropLast_concat_getLast hne).symm

/-- What a path leads to is surrounded by directories. -/
theorem Surrounded.follow {pieces : List String} {reached : Location}
    (hsurrounded : files.Surrounded location) (h : files.follow? location pieces = some reached) :
    files.Surrounded reached := by
  induction pieces generalizing location with
  | nil =>
    obtain ⟨entry, -, rfl⟩ := Option.map_eq_some_iff.1 h
    exact hsurrounded
  | cons piece pieces ih =>
    have hdirectory := directory_of_follow?_cons h
    rw [follow?_cons hdirectory] at h
    split at h
    · exact ih hsurrounded h
    · split at h
      · exact ih hsurrounded.dropLast h
      · exact ih (hsurrounded.append hdirectory piece) h

/-- What a target leads to from the file at a location. -/
def fromFile? (files : FileSystem) (location : Location) (target : String) : Option Location :=
  if (Path.mk target).isAbsolute then files.locate? ⟨target⟩
  else files.follow? location.dropLast (Path.mk target).pieces

/-- A path to a file leads to its directory before the name of the file. -/
theorem follow?_dropLast {front between behind : List String} {name : String}
    (hbetween : ∀ piece ∈ between, Path.isIdle piece)
    (hbehind : ∀ piece ∈ behind, Path.isIdle piece) (hname : Path.isIdle name = false)
    (h : files.follow? [] (front ++ between ++ name :: behind) = some location)
    (hfile : files.entry? location ≠ some .directory) :
    files.follow? [] front = some location.dropLast := by
  rw [follow?_append, follow?_append] at h
  obtain ⟨directory, hdirectory, h⟩ := Option.bind_eq_some_iff.1 h
  obtain ⟨front', hfront, hbetween'⟩ := Option.bind_eq_some_iff.1 hdirectory
  obtain rfl := follow?_of_idle hbetween hbetween'
  have hentry := directory_of_follow?_cons h
  rw [follow?_cons hentry, hname, if_neg Bool.false_ne_true] at h
  split at h
  · -- two dots lead to a directory
    have hsurrounded : files.Surrounded directory :=
      Surrounded.follow (fun _ _ _ hsplit => by simp at hsplit) hfront
    obtain rfl := follow?_of_idle hbehind h
    exact absurd (hsurrounded.entry?_dropLast hentry) hfile
  · obtain rfl := follow?_of_idle hbehind h
    rw [List.dropLast_concat]
    exact hfront

/-- A path to a file has a part that leads on. -/
theorem exists_name_of_locate? {path : Path} (hlocate : files.locate? path = some location)
    (hfile : files.entry? location ≠ some .directory) :
    ∃ piece ∈ path.pieces, Path.isIdle piece = false := by
  by_contra hidle
  have hall : ∀ piece ∈ path.pieces, Path.isIdle piece := by
    intro piece hpiece
    by_contra hpart
    exact hidle ⟨piece, hpiece, Bool.eq_false_iff.2 hpart⟩
  obtain rfl := follow?_of_idle hall hlocate
  exact hfile rfl

/-- A target relative to a path that leads to a file is found from the directory of the file on. -/
theorem locate?_join {path : Path} (hlocate : files.locate? path = some location)
    (hfile : files.entry? location ≠ some .directory) (target : String) :
    files.locate? ((path.parent?.getD ⟨""⟩).join target) = files.fromFile? location target := by
  unfold fromFile?
  split
  next habsolute => rw [Path.join, if_pos habsolute]
  next hrelative =>
    obtain ⟨front, between, name, behind, hpieces, hbetween, hbehind, hname, hlast, hparent⟩ :=
      Path.exists_parent (exists_name_of_locate? hlocate hfile)
    rw [locate?, hpieces] at hlocate
    have hfront := follow?_dropLast hbetween hbehind hname hlocate hfile
    have hslash : ∀ piece ∈ front, '/' ∉ piece.toList := by
      intro piece hpiece
      have hmem : piece ∈ path.pieces := by
        rw [hpieces]
        simp [hpiece]
      exact Path.not_mem_toList_of_mem_pieces hmem
    obtain ⟨lead, hlead, hjoin⟩ := Path.pieces_join_directoryOf path hslash hlast
      (Bool.eq_false_iff.2 hrelative)
    rw [hparent, Option.getD_some, locate?, hjoin, follow?_idle_append hlead rfl, follow?_append,
      hfront, Option.bind_some]

end FileSystem

end RamlDoc
