import Qdmi.Lib.Substitute

/-!
# Reading OpenQASM 2.0 Text

What a program refers to is decided by its words and symbols, and not by the
bytes between them. A text is read byte by byte into items: words, symbols,
blanks, comments and strings. An index that is written right behind a name, as
in `q[0]`, is read into one item with the name. With blanks in between it is
read into single items, so an item list still tells the two layouts apart.

Reading a text that is put together is reading its parts, each from where the
part before it has left off, `readAll_append`. With it replacing the index of
such references in the text comes down to a map over its items: an occurrence
of `q[0]` in the bytes is an item with a name that ends in `q`, or lies in a
comment or a string, and no such item comes from anything else.

## Main definitions

* `Item`, `Mode`: The items and what reading has in hand.
* `read`, `readAll`, `items`: Reading a byte, a text, and a whole text.
* `Item.retarget`, `indexRule`: Replacing an index in an item and in a text.
* `remarks`: The insides of its comments and strings.
* `Reference`, `references`: The indexed references of a text.

## Theorems

* `readAll_append`: Reading in parts.
* `readAll_indexed`: Reading a name with its index.
* `items_substitute`: Replacing indices in a text is replacing them in its items.
* `remarks_substitute`: Replacing indices in a text replaces them in its remarks.
* `references_retarget`: Replacing indices in the items and in the references.
-/

namespace Qdmi.Qasm

/-- The bytes of a word. -/
def wordByte (c : UInt8) : Bool :=
  (48 ≤ c && c ≤ 57) || (65 ≤ c && c ≤ 90) || (97 ≤ c && c ≤ 122) || c == 95

/-- Blank, tabulator and the ends of a line. -/
def blankByte (c : UInt8) : Bool := c == 32 || c == 9 || c == 10 || c == 13

/-- A nonempty word. -/
def IsWord (w : List UInt8) : Prop := w ≠ [] ∧ ∀ c ∈ w, wordByte c = true

theorem isWord_of_all {w : List UInt8} (hne : w ≠ []) (hall : w.all wordByte = true) : IsWord w :=
  ⟨hne, List.all_eq_true.mp hall⟩

/-- The items of a text. -/
inductive Item where
  | word (w : List UInt8)
  /-- A name and right behind it an index in brackets. -/
  | indexed (name index : List UInt8)
  | sym (c : UInt8)
  | blank (c : UInt8)
  | comment
  | str
  deriving DecidableEq, Repr

/-- What reading has in hand: a word, possibly none; a name with a bracket and
    the word in it so far; a slash; or the inside of a comment or a string. -/
inductive Mode where
  | code (word : List UInt8)
  | opened (name index : List UInt8)
  | slash
  | comment
  | quoted
  deriving DecidableEq, Repr

/-- The item of a word in hand. -/
def pending (w : List UInt8) : List Item := if w = [] then [] else [.word w]

/-- Read a byte that belongs to no word. -/
def punctuate (c : UInt8) : List Item × Mode :=
  if c = 47 then ([], .slash)
  else if c = 34 then ([.str], .quoted)
  else if blankByte c then ([.blank c], .code [])
  else ([.sym c], .code [])

/-- Read a byte with a word in hand. -/
def readCode (w : List UInt8) (c : UInt8) : List Item × Mode :=
  if wordByte c then ([], .code (w ++ [c]))
  else if c = 91 ∧ w ≠ [] then ([], .opened w [])
  else (pending w ++ (punctuate c).1, (punctuate c).2)

/-- Read a byte. -/
def read : Mode → UInt8 → List Item × Mode
  | .code w, c => readCode w c
  | .opened name index, c =>
    if wordByte c then ([], .opened name (index ++ [c]))
    else if c = 93 ∧ index ≠ [] then ([.indexed name index], .code [])
    else ([.word name, .sym 91] ++ (readCode index c).1, (readCode index c).2)
  | .slash, c =>
    if c = 47 then ([.comment], .comment)
    else ([.sym 47] ++ (readCode [] c).1, (readCode [] c).2)
  | .comment, c => if c = 10 then ([.blank 10], .code []) else ([], .comment)
  | .quoted, c => if c = 34 then ([], .code []) else ([], .quoted)

/-- Read a text. -/
def readAll : Mode → List UInt8 → List Item × Mode
  | mode, [] => ([], mode)
  | mode, c :: s =>
    ((read mode c).1 ++ (readAll (read mode c).2 s).1, (readAll (read mode c).2 s).2)

/-- What is left in hand at the end. -/
def finish : Mode → List Item
  | .code w => pending w
  | .opened name index => [.word name, .sym 91] ++ pending index
  | .slash => [.sym 47]
  | .comment => []
  | .quoted => []

/-- The items of a text, from a mode on. -/
def itemsFrom (mode : Mode) (s : List UInt8) : List Item :=
  (readAll mode s).1 ++ finish (readAll mode s).2

/-- The items of a text. -/
def items (s : List UInt8) : List Item := itemsFrom (.code []) s

theorem readAll_append (mode : Mode) (s t : List UInt8) :
    readAll mode (s ++ t) = ((readAll mode s).1 ++ (readAll (readAll mode s).2 t).1,
      (readAll (readAll mode s).2 t).2) := by
  induction s generalizing mode with
  | nil => rfl
  | cons c s ih =>
      rw [List.cons_append, readAll, ih, readAll]
      simp only [List.append_assoc]

theorem itemsFrom_append (mode : Mode) (s t : List UInt8) :
    itemsFrom mode (s ++ t) = (readAll mode s).1 ++ itemsFrom (readAll mode s).2 t := by
  rw [itemsFrom, readAll_append, itemsFrom, List.append_assoc]

theorem itemsFrom_cons (mode : Mode) (c : UInt8) (s : List UInt8) :
    itemsFrom mode (c :: s) = (read mode c).1 ++ itemsFrom (read mode c).2 s := by
  rw [itemsFrom, readAll, itemsFrom, List.append_assoc]

/-! ## Reading words and references -/

/-- Nothing is read inside a comment or a string. -/
def Mode.skips : Mode → Bool
  | .comment => true
  | .quoted => true
  | _ => false

/-- The items that go out with the next word. -/
def Mode.stale : Mode → List Item
  | .opened name _ => [.word name, .sym 91]
  | .slash => [.sym 47]
  | _ => []

/-- The word in hand. -/
def Mode.word : Mode → List UInt8
  | .code w => w
  | .opened _ index => index
  | _ => []

theorem wordByte_ne {c d : UInt8} (hc : wordByte c = true) (hd : wordByte d = false) : c ≠ d := by
  intro h
  rw [h, hd] at hc
  exact Bool.false_ne_true hc

theorem readAll_code_word {v : List UInt8} (hv : ∀ c ∈ v, wordByte c = true) (w : List UInt8) :
    readAll (.code w) v = ([], .code (w ++ v)) := by
  induction v generalizing w with
  | nil => rw [List.append_nil]; rfl
  | cons c v ih =>
      rw [List.forall_mem_cons] at hv
      rw [readAll, read, readCode, if_pos hv.1]
      dsimp only
      rw [ih hv.2, List.nil_append, List.append_assoc, List.singleton_append]

theorem readAll_opened_word {v : List UInt8} (hv : ∀ c ∈ v, wordByte c = true)
    (name index : List UInt8) :
    readAll (.opened name index) v = ([], .opened name (index ++ v)) := by
  induction v generalizing index with
  | nil => rw [List.append_nil]; rfl
  | cons c v ih =>
      rw [List.forall_mem_cons] at hv
      rw [readAll, read, if_pos hv.1]
      dsimp only
      rw [ih hv.2, List.nil_append, List.append_assoc, List.singleton_append]

theorem readAll_slash_word {v : List UInt8} (hv : IsWord v) :
    readAll .slash v = ([.sym 47], .code v) := by
  rcases v with _ | ⟨c, v⟩
  · exact absurd rfl hv.1
  have hword := List.forall_mem_cons.mp hv.2
  rw [readAll, read, if_neg (wordByte_ne hword.1 (by decide)), readCode, if_pos hword.1]
  dsimp only
  rw [readAll_code_word hword.2]
  rfl

/-- A word and behind it a byte that is no bracket. -/
theorem readAll_word_end {mode : Mode} (hmode : mode.skips = false) {v : List UInt8} (hv : IsWord v)
    {c : UInt8} (hc : wordByte c = false) (hopen : c ≠ 91) (hclose : c ≠ 93) :
    readAll mode (v ++ [c]) =
      (mode.stale ++ .word (mode.word ++ v) :: (punctuate c).1, (punctuate c).2) := by
  -- A byte that opens no index ends the word in hand.
  have hcode : ∀ w, w ≠ [] → readCode w c = (.word w :: (punctuate c).1, (punctuate c).2) := by
    intro w hw
    rw [readCode, if_neg (by rw [hc]; exact Bool.false_ne_true), if_neg (fun h => hopen h.1),
      pending, if_neg hw]
    rfl
  rw [readAll_append]
  cases mode with
  | code w =>
      rw [readAll_code_word hv.2]
      simp only [readAll, read, hcode _ (List.append_ne_nil_of_right_ne_nil w hv.1),
        List.append_nil, List.nil_append]
      rfl
  | opened name index =>
      rw [readAll_opened_word hv.2]
      simp only [readAll, read, hcode _ (List.append_ne_nil_of_right_ne_nil index hv.1), hc, hclose,
        Bool.false_eq_true, if_false, false_and, List.append_nil, List.nil_append]
      rfl
  | slash =>
      rw [readAll_slash_word hv]
      simp only [readAll, read, hcode v hv.1, List.append_nil]
      rfl
  | comment => exact absurd hmode (by decide)
  | quoted => exact absurd hmode (by decide)

/-- Reading a name with its index. The name may go on with the word in hand. -/
theorem readAll_indexed {mode : Mode} (hmode : mode.skips = false) {v k : List UInt8}
    (hv : IsWord v) (hk : IsWord k) :
    readAll mode (v ++ 91 :: (k ++ [93])) =
      (mode.stale ++ [.indexed (mode.word ++ v) k], .code []) := by
  -- Behind the bracket only the index is missing.
  have hindex : ∀ name, readAll (.opened name []) (k ++ [93]) = ([.indexed name k], .code []) := by
    intro name
    rw [readAll_append, readAll_opened_word hk.2, List.nil_append]
    simp only [readAll, read, if_neg (show ¬ wordByte 93 = true by decide), hk.1, ne_eq,
      not_false_eq_true, and_self, if_true, List.nil_append, List.append_nil]
  have hword : ¬ wordByte 91 = true := by decide
  have hcode : ∀ w, w ≠ [] → readCode w 91 = ([], .opened w []) := by
    intro w hw
    rw [readCode, if_neg hword, if_pos ⟨rfl, hw⟩]
  rw [readAll_append]
  cases mode with
  | code w =>
      rw [readAll_code_word hv.2, readAll, read,
        hcode _ (List.append_ne_nil_of_right_ne_nil w hv.1), hindex]
      rfl
  | opened name index =>
      rw [readAll_opened_word hv.2, readAll, read, if_neg hword,
        if_neg (fun h => absurd h.1 (by decide)),
        hcode _ (List.append_ne_nil_of_right_ne_nil index hv.1), hindex]
      rfl
  | slash =>
      rw [readAll_slash_word hv, readAll, read, hcode v hv.1, hindex]
      rfl
  | comment => exact absurd hmode (by decide)
  | quoted => exact absurd hmode (by decide)

/-- A comment or a string goes on with every byte that does not end it. -/
theorem read_skips {mode : Mode} (hmode : mode.skips = true) {c : UInt8} (hline : c ≠ 10)
    (hquote : c ≠ 34) : read mode c = ([], mode) := by
  cases mode with
  | comment => rw [read, if_neg hline]
  | quoted => rw [read, if_neg hquote]
  | code w => exact absurd hmode Bool.false_ne_true
  | opened name index => exact absurd hmode Bool.false_ne_true
  | slash => exact absurd hmode Bool.false_ne_true

/-- A comment or a string goes on up to the end of the line or the next
    quotation mark. -/
theorem readAll_skips {mode : Mode} (hmode : mode.skips = true) {s : List UInt8} (hline : 10 ∉ s)
    (hquote : 34 ∉ s) : readAll mode s = ([], mode) := by
  induction s with
  | nil => rfl
  | cons c s ih =>
      rw [List.mem_cons, not_or] at hline hquote
      rw [readAll, read_skips hmode (Ne.symm hline.1) (Ne.symm hquote.1)]
      dsimp only
      rw [ih hline.2 hquote.2]
      rfl

/-! ## Replacing indices -/

/-- Replace the index behind a name that ends in `c`, as a table says. -/
def Item.retarget (c : UInt8) (table : List (List UInt8 × List UInt8)) : Item → Item
  | .indexed name index =>
    if name.getLast? = some c then .indexed name ((table.lookup index).getD index)
    else .indexed name index
  | item => item

/-- The rule that replaces the index of an entry in a text. -/
def indexRule (c : UInt8) (entry : List UInt8 × List UInt8) : List UInt8 × List UInt8 :=
  (c :: 91 :: (entry.1 ++ [93]), c :: 91 :: (entry.2 ++ [93]))

section

variable {c : UInt8} {table : List (List UInt8 × List UInt8)}

/-- No entry of the table ends at the beginning of the text: the name or the
    index of such a reference has not been read before it. -/
def Harmless (c : UInt8) (table : List (List UInt8 × List UInt8)) : Mode → List UInt8 → Prop
  | .code w, s => w.getLast? = some c → ∀ entry ∈ table, ¬ 91 :: (entry.1 ++ [93]) <+: s
  | .opened name index, s =>
    (name.getLast? = some c → ∀ entry ∈ table, ¬ entry.1 ++ [93] <+: index ++ s) ∧
    (index.getLast? = some c → ∀ entry ∈ table, ¬ 91 :: (entry.1 ++ [93]) <+: s)
  | _, _ => True

theorem not_ends_nil {P : Prop} (h : ([] : List UInt8).getLast? = some c) : P := by
  rw [List.getLast?_nil] at h
  exact absurd h (by simp only [reduceCtorEq, not_false_eq_true])

/-- No rule applies at the next byte. -/
def Unmatched (c : UInt8) (table : List (List UInt8 × List UInt8)) (s : List UInt8) : Prop :=
  ∀ rule ∈ table.map (indexRule c), ¬ rule.1 <+: s

theorem retarget_pending (w : List UInt8) :
    (pending w).map (Item.retarget c table) = pending w := by
  by_cases hw : w = []
  · rw [pending, if_pos hw, List.map_nil]
  · rw [pending, if_neg hw]
    rfl

theorem retarget_punctuate (b : UInt8) :
    (punctuate b).1.map (Item.retarget c table) = (punctuate b).1 := by
  rw [punctuate]
  split
  · rfl
  · split
    · rfl
    · split <;> rfl

theorem harmless_punctuate (b : UInt8) (s : List UInt8) :
    Harmless c table (punctuate b).2 s := by
  rw [punctuate]
  split
  · exact True.intro
  · split
    · exact True.intro
    · split <;> exact not_ends_nil

theorem harmless_of_skips {mode : Mode} (hmode : mode.skips = true) {s : List UInt8} :
    Harmless c table mode s := by
  cases mode with
  | comment => exact True.intro
  | quoted => exact True.intro
  | code w => exact absurd hmode Bool.false_ne_true
  | opened name index => exact absurd hmode Bool.false_ne_true
  | slash => exact absurd hmode Bool.false_ne_true

/-- A word that ends in `c` has read a `c` at which no rule applied. -/
theorem no_entry_behind {w : List UInt8} {b : UInt8} {s : List UInt8}
    (hs : Unmatched c table (b :: s)) (hlast : (w ++ [b]).getLast? = some c) :
    ∀ entry ∈ table, ¬ 91 :: (entry.1 ++ [93]) <+: s := by
  intro entry hentry hpre
  rw [List.getLast?_concat, Option.some.injEq] at hlast
  refine hs (indexRule c entry) (List.mem_map_of_mem hentry) ?_
  rw [indexRule, hlast, List.cons_prefix_cons]
  exact ⟨rfl, hpre⟩

/-- A byte at which no rule applies, with a word in hand. -/
theorem readCode_step {w : List UInt8} {b : UInt8} {s : List UInt8}
    (hw : w.getLast? = some c → ∀ entry ∈ table, ¬ 91 :: (entry.1 ++ [93]) <+: b :: s)
    (hs : Unmatched c table (b :: s)) :
    (readCode w b).1.map (Item.retarget c table) = (readCode w b).1 ∧
      Harmless c table (readCode w b).2 s := by
  by_cases hword : wordByte b = true
  · rw [readCode, if_pos hword]
    exact ⟨rfl, no_entry_behind hs⟩
  · by_cases hopen : b = 91 ∧ w ≠ []
    · -- A bracket opens the index of the word in hand, which no entry may end.
      rw [readCode, if_neg hword, if_pos hopen]
      refine ⟨rfl, fun hname entry hentry hpre => hw hname entry hentry ?_, ?_⟩
      · rw [hopen.1, List.cons_prefix_cons]
        exact ⟨rfl, hpre⟩
      · exact not_ends_nil
    · rw [readCode, if_neg hword, if_neg hopen, List.map_append, retarget_pending,
        retarget_punctuate]
      exact ⟨rfl, harmless_punctuate b s⟩

/-- A byte at which no rule applies. -/
theorem read_step {mode : Mode} {b : UInt8} {s : List UInt8} (hm : Harmless c table mode (b :: s))
    (hs : Unmatched c table (b :: s)) :
    (read mode b).1.map (Item.retarget c table) = (read mode b).1 ∧
      Harmless c table (read mode b).2 s := by
  cases mode with
  | code w => exact readCode_step hm hs
  | opened name index =>
      by_cases hword : wordByte b = true
      · -- The index goes on, so the text still to be read has become shorter by it.
        rw [read, if_pos hword]
        refine ⟨rfl, fun hname entry hentry hpre => hm.1 hname entry hentry ?_,
          no_entry_behind hs⟩
        rwa [List.append_assoc, List.singleton_append] at hpre
      · by_cases hclose : b = 93 ∧ index ≠ []
        · rw [read, if_neg hword, if_pos hclose]
          refine ⟨?_, not_ends_nil⟩
          rw [List.map_singleton, Item.retarget]
          by_cases hname : name.getLast? = some c
          · -- The index that ends here is not in the table.
            have hnone : table.lookup index = none := by
              rw [List.lookup_eq_none_iff]
              intro entry hentry
              rw [bne_iff_ne]
              intro heq
              refine hm.1 hname entry hentry ?_
              rw [heq, hclose.1]
              exact ⟨s, by rw [List.append_assoc, List.singleton_append]⟩
            rw [if_pos hname, hnone, Option.getD_none]
          · rw [if_neg hname]
        · -- The name turns out to have no index, and the word in hand is read on.
          have hcode := readCode_step hm.2 hs
          rw [read, if_neg hword, if_neg hclose, List.map_append, hcode.1]
          exact ⟨rfl, hcode.2⟩
  | slash =>
      by_cases hslash : b = 47
      · rw [read, if_pos hslash]
        exact ⟨rfl, True.intro⟩
      · have hcode := readCode_step (w := []) not_ends_nil hs
        rw [read, if_neg hslash, List.map_append, hcode.1]
        exact ⟨rfl, hcode.2⟩
  | comment =>
      rw [read]
      split
      · exact ⟨rfl, not_ends_nil⟩
      · exact ⟨rfl, True.intro⟩
  | quoted =>
      rw [read]
      split
      · exact ⟨rfl, not_ends_nil⟩
      · exact ⟨rfl, True.intro⟩

/-- The first rule that applies at a reference is the one of its index. -/
theorem lookup_of_find {entry : List UInt8 × List UInt8} {s : List UInt8}
    (hfind : table.find? (fun e => (indexRule c e).1.isPrefixOf ((indexRule c entry).1 ++ s)) =
      some entry) : table.lookup entry.1 = some entry.2 := by
  rcases List.find?_eq_some_iff_append.mp hfind with ⟨_, before, after, hsplit, hbefore⟩
  refine List.lookup_eq_some_iff.mpr ⟨before, after, hsplit, fun e he => ?_⟩
  rw [bne_iff_ne]
  intro heq
  have hno := hbefore e he
  rw [Bool.not_eq_true', ← Bool.not_eq_true, List.isPrefixOf_iff_prefix] at hno
  refine hno ?_
  rw [indexRule, ← heq]
  exact List.prefix_append _ _

theorem not_mem_indexed {w : List UInt8} (hc : wordByte c = true) (hw : IsWord w) {b : UInt8}
    (hb : wordByte b = false) (hopen : b ≠ 91) (hclose : b ≠ 93) :
    b ∉ c :: 91 :: (w ++ [93]) := by
  intro hmem
  rw [List.mem_cons, List.mem_cons, List.mem_append, List.mem_singleton] at hmem
  rcases hmem with h | h | h | h
  · exact wordByte_ne hc hb h.symm
  · exact hopen h
  · exact wordByte_ne (hw.2 b h) hb rfl
  · exact hclose h

theorem retarget_stale (mode : Mode) :
    mode.stale.map (Item.retarget c table) = mode.stale := by
  cases mode <;> rfl

theorem retarget_finish (mode : Mode) :
    (finish mode).map (Item.retarget c table) = finish mode := by
  cases mode with
  | code w => exact retarget_pending w
  | opened name index => rw [finish, List.map_append, retarget_pending]; rfl
  | slash => rfl
  | comment => rfl
  | quoted => rfl

/-- Replacing indices in a text is replacing them in its items. The induction is
    along the substitution, over every mode the text can be read from. -/
theorem itemsFrom_substitute (hc : wordByte c = true)
    (htable : ∀ entry ∈ table, IsWord entry.1 ∧ IsWord entry.2) (s : List UInt8) :
    ∀ mode, Harmless c table mode s → itemsFrom mode (substitute (table.map (indexRule c)) s) =
      (itemsFrom mode s).map (Item.retarget c table) := by
  induction s using substitute_induction (table.map (indexRule c)) with
  | hne rule hrule =>
      rcases List.mem_map.mp hrule with ⟨entry, _, rfl⟩
      exact List.cons_ne_nil _ _
  | hnil =>
      intro mode _
      rw [substitute_nil, itemsFrom, readAll, List.nil_append, retarget_finish]
  | hmatch rule hrule s hfind ih =>
      intro mode _
      rcases List.mem_map.mp hrule with ⟨e, _, rfl⟩
      have hsub : substitute (table.map (indexRule c)) ((indexRule c e).1 ++ s) =
          (indexRule c e).2 ++ substitute (table.map (indexRule c)) s :=
        substitute_match (List.cons_ne_nil _ _) hfind
      -- The rule comes from the first entry with its index.
      rw [List.find?_map] at hfind
      rcases Option.map_eq_some_iff.mp hfind with ⟨entry, hentry, hsame⟩
      rw [← hsame] at hentry hsub ⊢
      have hwords := htable entry (List.mem_of_find?_eq_some hentry)
      have hlookup := lookup_of_find hentry
      rw [hsub, itemsFrom_append, itemsFrom_append]
      by_cases hskips : mode.skips = true
      · -- Inside a comment or a string both are passed over.
        have hskip : ∀ w, IsWord w → readAll mode (c :: 91 :: (w ++ [93])) = ([], mode) := by
          intro w hw
          exact readAll_skips hskips (not_mem_indexed hc hw (by decide) (by decide) (by decide))
            (not_mem_indexed hc hw (by decide) (by decide) (by decide))
        rw [indexRule, hskip _ hwords.1, hskip _ hwords.2]
        exact ih mode (harmless_of_skips hskips)
      · rw [Bool.not_eq_true] at hskips
        have hread : ∀ w, IsWord w → readAll mode (c :: 91 :: (w ++ [93])) =
            (mode.stale ++ [.indexed (mode.word ++ [c]) w], .code []) := by
          intro w hw
          have hname : IsWord [c] := ⟨List.cons_ne_nil _ _, List.forall_mem_singleton.mpr hc⟩
          exact readAll_indexed hskips hname hw
        rw [indexRule, hread _ hwords.1, hread _ hwords.2]
        dsimp only
        rw [ih (.code []) not_ends_nil, List.map_append, List.map_append, retarget_stale,
          List.map_singleton, Item.retarget, if_pos List.getLast?_concat, hlookup, Option.getD_some]
  | hcons b s hno ih =>
      intro mode hmode
      have hstep := read_step hmode hno
      rw [substitute_cons hno, itemsFrom_cons, itemsFrom_cons, ih _ hstep.2, List.map_append,
        hstep.1]

theorem items_substitute (hc : wordByte c = true)
    (htable : ∀ entry ∈ table, IsWord entry.1 ∧ IsWord entry.2) (s : List UInt8) :
    items (substitute (table.map (indexRule c)) s) = (items s).map (Item.retarget c table) :=
  itemsFrom_substitute hc htable s (.code []) not_ends_nil

end

/-! ## Remarks -/

/-- The insides of comments and strings, each with the byte that ends it, read
    from a mode on. -/
def remarksFrom : Mode → List UInt8 → List UInt8
  | _, [] => []
  | mode, c :: s =>
    if mode.skips then c :: remarksFrom (read mode c).2 s else remarksFrom (read mode c).2 s

/-- The insides of the comments and strings of a text. Its items say where they
    stand. -/
def remarks (s : List UInt8) : List UInt8 := remarksFrom (.code []) s

example : remarks [104, 47, 47, 113, 10, 104] = [113, 10] := by decide

theorem remarksFrom_append (mode : Mode) (s t : List UInt8) :
    remarksFrom mode (s ++ t) = remarksFrom mode s ++ remarksFrom (readAll mode s).2 t := by
  induction s generalizing mode with
  | nil => rfl
  | cons c s ih =>
      rw [List.cons_append, remarksFrom, remarksFrom, ih, readAll]
      split
      · rfl
      · rfl

/-- What stands in a comment or a string is a remark. -/
theorem remarksFrom_skips {mode : Mode} (hmode : mode.skips = true) {p : List UInt8}
    (hline : 10 ∉ p) (hquote : 34 ∉ p) (s : List UInt8) :
    remarksFrom mode (p ++ s) = p ++ remarksFrom mode s := by
  induction p with
  | nil => rfl
  | cons c p ih =>
      rw [List.mem_cons, not_or] at hline hquote
      rw [List.cons_append, remarksFrom, if_pos hmode,
        read_skips hmode (Ne.symm hline.1) (Ne.symm hquote.1), ih hline.2 hquote.2]
      rfl

/-- No comment and no string begins without a slash or a quotation mark. -/
theorem read_keeps_code {mode : Mode} (hmode : mode.skips = false) {c : UInt8} (hslash : c ≠ 47)
    (hquote : c ≠ 34) : (read mode c).2.skips = false := by
  -- Reading code skips on only behind a slash or in quotes.
  have hcode : ∀ w, (readCode w c).2.skips = false := by
    intro w
    rw [readCode, punctuate, if_neg hslash, if_neg hquote]
    split
    · rfl
    split
    · rfl
    split <;> rfl
  cases mode with
  | code w => exact hcode w
  | opened name index =>
      rw [read]
      split
      · rfl
      split
      · rfl
      · exact hcode index
  | slash =>
      rw [read, if_neg hslash]
      exact hcode []
  | comment => exact absurd hmode (by decide)
  | quoted => exact absurd hmode (by decide)

/-- A text without slashes and quotation marks has no remarks of its own. -/
theorem remarksFrom_code {mode : Mode} (hmode : mode.skips = false) {p : List UInt8}
    (hslash : 47 ∉ p) (hquote : 34 ∉ p) : remarksFrom mode p = [] := by
  induction p generalizing mode with
  | nil => rfl
  | cons c p ih =>
      rw [List.mem_cons, not_or] at hslash hquote
      rw [remarksFrom, if_neg (by rw [hmode]; exact Bool.false_ne_true)]
      exact ih (read_keeps_code hmode (Ne.symm hslash.1) (Ne.symm hquote.1)) hslash.2 hquote.2

/-- What begins a remark stands at its beginning in the text. -/
theorem prefix_remarksFrom {mode : Mode} (hmode : mode.skips = true) {p s : List UInt8}
    (hline : 10 ∉ p) (hquote : 34 ∉ p) (h : p <+: remarksFrom mode s) : p <+: s := by
  induction p generalizing s with
  | nil => exact List.nil_prefix
  | cons a p ih =>
      rw [List.mem_cons, not_or] at hline hquote
      rcases s with _ | ⟨b, s⟩
      · exact h
      · rw [remarksFrom, if_pos hmode, List.cons_prefix_cons] at h
        rcases h with ⟨hab, h⟩
        rw [read_skips hmode (hab ▸ Ne.symm hline.1) (hab ▸ Ne.symm hquote.1)] at h
        rw [List.cons_prefix_cons]
        exact ⟨hab, ih hline.2 hquote.2 h⟩

/-- What occurs in the remarks occurs in the text, in a comment or a string. The
    induction is along the text, and a byte outside of them is passed over. -/
theorem exists_of_remarksFrom {p : List UInt8} (hne : p ≠ []) (hline : 10 ∉ p) (hquote : 34 ∉ p)
    {s : List UInt8} {mode : Mode} {a b : List UInt8} (h : remarksFrom mode s = a ++ (p ++ b)) :
    ∃ front back, s = front ++ (p ++ back) ∧ (readAll mode front).2.skips = true ∧
      remarksFrom mode front = a := by
  induction s generalizing mode a with
  | nil =>
      rw [remarksFrom, eq_comm, List.append_eq_nil_iff, List.append_eq_nil_iff] at h
      exact absurd h.2.1 hne
  | cons c s ih =>
      by_cases hmode : mode.skips = true
      · -- The byte is in a remark: the text begins with it or comes behind it.
        rcases a with _ | ⟨d, a⟩
        · have hpre := prefix_remarksFrom hmode hline hquote (h ▸ List.prefix_append p b)
          rcases hpre with ⟨back, hback⟩
          exact ⟨[], back, hback.symm, hmode, rfl⟩
        · rw [remarksFrom, if_pos hmode, List.cons_append, List.cons.injEq] at h
          rcases ih h.2 with ⟨front, back, hs, hskips, ha⟩
          refine ⟨c :: front, back, by rw [hs, List.cons_append], hskips, ?_⟩
          rw [remarksFrom, if_pos hmode, ha, h.1]
      · rw [remarksFrom, if_neg hmode] at h
        rcases ih h with ⟨front, back, hs, hskips, ha⟩
        refine ⟨c :: front, back, by rw [hs, List.cons_append], hskips, ?_⟩
        rw [remarksFrom, if_neg hmode, ha]

/-- Which rule applies at an index does not depend on what stands behind it. -/
theorem indexRule_prefix_iff {c : UInt8} {entry entry' : List UInt8 × List UInt8}
    (hk : IsWord entry.1) (hk' : IsWord entry'.1) (s : List UInt8) :
    (indexRule c entry).1 <+: (indexRule c entry').1 ++ s ↔ entry.1 = entry'.1 := by
  have hclose : ∀ w, IsWord w → (93 : UInt8) ∉ w :=
    fun w hw hm => wordByte_ne (hw.2 93 hm) (show wordByte 93 = false by decide) rfl
  constructor
  · intro h
    rw [indexRule, indexRule, List.cons_append, List.cons_prefix_cons, List.cons_append,
      List.cons_prefix_cons, List.append_assoc] at h
    exact terminated_inj (hclose _ hk) (hclose _ hk') h.2.2
  · intro h
    rw [indexRule, indexRule, h]
    exact List.prefix_append _ _

/-- Replacing indices in a text replaces them in its remarks. The induction is
    along the substitution, over every mode the text can be read from. -/
theorem remarksFrom_substitute {c : UInt8} {table : List (List UInt8 × List UInt8)}
    (hc : wordByte c = true) (htable : ∀ entry ∈ table, IsWord entry.1 ∧ IsWord entry.2)
    (s : List UInt8) : ∀ mode, remarksFrom mode (substitute (table.map (indexRule c)) s) =
      substitute (table.map (indexRule c)) (remarksFrom mode s) := by
  induction s using substitute_induction (table.map (indexRule c)) with
  | hne rule hrule =>
      rcases List.mem_map.mp hrule with ⟨entry, _, rfl⟩
      exact List.cons_ne_nil _ _
  | hnil => exact fun mode => rfl
  | hmatch rule hrule s hfind ih =>
      intro mode
      rcases List.mem_map.mp hrule with ⟨entry, hentry, rfl⟩
      have hwords := htable entry hentry
      have hsub : substitute (table.map (indexRule c)) ((indexRule c entry).1 ++ s) =
          (indexRule c entry).2 ++ substitute (table.map (indexRule c)) s :=
        substitute_match (List.cons_ne_nil _ _) hfind
      rw [hsub, remarksFrom_append, remarksFrom_append, ih]
      by_cases hskips : mode.skips = true
      · -- In a comment or a string the same rule applies to the remark.
        have hskip : ∀ w, IsWord w → readAll mode (c :: 91 :: (w ++ [93])) = ([], mode) ∧
            remarksFrom mode (c :: 91 :: (w ++ [93])) = c :: 91 :: (w ++ [93]) := by
          intro w hw
          have hline := not_mem_indexed hc hw (b := 10) (by decide) (by decide) (by decide)
          have hquote := not_mem_indexed hc hw (b := 34) (by decide) (by decide) (by decide)
          have hall := remarksFrom_skips hskips hline hquote []
          rw [List.append_nil, remarksFrom, List.append_nil] at hall
          exact ⟨readAll_skips hskips hline hquote, hall⟩
        have hsame : (table.map (indexRule c)).find?
            (fun r => r.1.isPrefixOf ((indexRule c entry).1 ++ remarksFrom mode s)) =
            some (indexRule c entry) := by
          rw [← hfind]
          refine List.find?_congr (fun r hr => ?_)
          rcases List.mem_map.mp hr with ⟨e, he, rfl⟩
          rw [Bool.eq_iff_iff, List.isPrefixOf_iff_prefix, List.isPrefixOf_iff_prefix,
            indexRule_prefix_iff (htable e he).1 hwords.1,
            indexRule_prefix_iff (htable e he).1 hwords.1]
        have hput := hskip _ hwords.2
        have htake := hskip _ hwords.1
        have hboth : substitute (table.map (indexRule c))
            ((indexRule c entry).1 ++ remarksFrom mode s) =
            (indexRule c entry).2 ++ substitute (table.map (indexRule c)) (remarksFrom mode s) :=
          substitute_match (List.cons_ne_nil _ _) hsame
        rw [indexRule] at hboth ⊢
        rw [hput.1, hput.2, htake.1, htake.2, hboth]
      · rw [Bool.not_eq_true] at hskips
        have hread : ∀ w, IsWord w → (readAll mode (c :: 91 :: (w ++ [93]))).2 = .code [] ∧
            remarksFrom mode (c :: 91 :: (w ++ [93])) = [] := by
          intro w hw
          have hname : IsWord [c] := ⟨List.cons_ne_nil _ _, List.forall_mem_singleton.mpr hc⟩
          have hslash := not_mem_indexed hc hw (b := 47) (by decide) (by decide) (by decide)
          have hquote := not_mem_indexed hc hw (b := 34) (by decide) (by decide) (by decide)
          have hall := readAll_indexed hskips hname hw
          exact ⟨congrArg Prod.snd hall, remarksFrom_code hskips hslash hquote⟩
        rw [indexRule, (hread _ hwords.1).1, (hread _ hwords.1).2, (hread _ hwords.2).1,
          (hread _ hwords.2).2]
        rfl
  | hcons b s hno ih =>
      intro mode
      rw [substitute_cons hno, remarksFrom, remarksFrom, ih]
      by_cases hskips : mode.skips = true
      · rw [if_pos hskips, if_pos hskips, substitute_cons]
        -- A rule that applies to the remark would apply to the text.
        intro rule hrule hpre
        refine hno rule hrule ?_
        rcases List.mem_map.mp hrule with ⟨entry, hentry, rfl⟩
        have hwords := htable entry hentry
        have hremark : (indexRule c entry).1 <+: remarksFrom mode (b :: s) := by
          rw [remarksFrom, if_pos hskips]
          exact hpre
        exact prefix_remarksFrom hskips
          (not_mem_indexed hc hwords.1 (by decide) (by decide) (by decide))
          (not_mem_indexed hc hwords.1 (by decide) (by decide) (by decide)) hremark
      · rw [if_neg hskips, if_neg hskips]

theorem remarks_substitute {c : UInt8} {table : List (List UInt8 × List UInt8)}
    (hc : wordByte c = true) (htable : ∀ entry ∈ table, IsWord entry.1 ∧ IsWord entry.2)
    (s : List UInt8) : remarks (substitute (table.map (indexRule c)) s) =
      substitute (table.map (indexRule c)) (remarks s) :=
  remarksFrom_substitute hc htable s (.code [])

/-! ## References -/

/-- A name with an index: the word right before it, if any, and whether name and
    index are written without blanks. -/
structure Reference where
  before : List UInt8
  name : List UInt8
  index : List UInt8
  glued : Bool
  deriving DecidableEq, Repr

/-- What no reader of a program looks at. -/
def Item.isGap : Item → Bool
  | .blank _ => true
  | .comment => true
  | _ => false

/-- The reference of a name that its index is not written right behind of. -/
def spacedReference (before name : List UInt8) : List Item → List Reference
  | .sym 91 :: .word index :: .sym 93 :: _ => [⟨before, name, index, false⟩]
  | _ => []

/-- The references of items without gaps, behind a word. -/
def referencesFrom : List UInt8 → List Item → List Reference
  | _, [] => []
  | before, .indexed name index :: rest => ⟨before, name, index, true⟩ :: referencesFrom [] rest
  | before, .word w :: rest => spacedReference before w rest ++ referencesFrom w rest
  | _, _ :: rest => referencesFrom [] rest

/-- The indexed references of a list of items. -/
def referencesOf (all : List Item) : List Reference :=
  referencesFrom [] (all.filter (fun item => !item.isGap))

/-- The indexed references of a text. -/
def references (s : List UInt8) : List Reference := referencesOf (items s)

/-- Replace the index of a reference as in its item. -/
def Reference.retarget (c : UInt8) (table : List (List UInt8 × List UInt8)) (r : Reference) :
    Reference :=
  if r.glued = true ∧ r.name.getLast? = some c then
    { r with index := (table.lookup r.index).getD r.index }
  else r

/-- Change nothing but indices. -/
structure KeepsItems (f : Item → Item) : Prop where
  isGap : ∀ item, (f item).isGap = item.isGap
  word : ∀ item w, f item = .word w ↔ item = .word w
  sym : ∀ item b, f item = .sym b ↔ item = .sym b

theorem filter_map_gaps {f : Item → Item} (hf : KeepsItems f) (all : List Item) :
    (all.map f).filter (fun item => !item.isGap) =
      (all.filter (fun item => !item.isGap)).map f := by
  rw [List.filter_map]
  refine congrArg _ (List.filter_congr (fun item _ => ?_))
  rw [Function.comp_apply, hf.isGap]

theorem spacedReference_eq_nil {before name : List UInt8} {all : List Item}
    (h : ∀ index rest, all ≠ .sym 91 :: .word index :: .sym 93 :: rest) :
    spacedReference before name all = [] := by
  rw [spacedReference]
  intro index rest heq
  exact h index rest heq

/-- A reference with blanks in it is read off words and symbols alone. -/
theorem spacedReference_map {f : Item → Item} (hf : KeepsItems f) (before name : List UInt8)
    (all : List Item) :
    spacedReference before name (all.map f) = spacedReference before name all := by
  by_cases h : ∃ index rest, all = .sym 91 :: .word index :: .sym 93 :: rest
  · rcases h with ⟨index, rest, rfl⟩
    simp only [List.map_cons, (hf.sym _ _).mpr rfl, (hf.word _ _).mpr rfl, spacedReference]
  · rw [not_exists] at h
    -- Where there is no reference none can appear, since `f` makes no words or symbols.
    have hno : ∀ index rest, all ≠ .sym 91 :: .word index :: .sym 93 :: rest :=
      fun index rest heq => h index ⟨rest, heq⟩
    rw [spacedReference_eq_nil hno]
    refine spacedReference_eq_nil (fun index rest heq => ?_)
    rcases List.map_eq_cons_iff.mp heq with ⟨x, xs, rfl, hx, hxs⟩
    rcases List.map_eq_cons_iff.mp hxs with ⟨y, ys, rfl, hy, hys⟩
    rcases List.map_eq_cons_iff.mp hys with ⟨z, zs, rfl, hz, _⟩
    rw [hf.sym] at hx hz
    rw [hf.word] at hy
    exact hno index zs (by rw [hx, hy, hz])

/-- Forget the index of an item. -/
def Item.face : Item → Item
  | .indexed name _ => .indexed name []
  | item => item

/-- Change the index of an item and nothing else. -/
structure Reindexes (f : Item → Item) (g : List UInt8 → List UInt8 → List UInt8) : Prop where
  indexed : ∀ name index, f (.indexed name index) = .indexed name (g name index)
  other : ∀ item, (∀ name index, item ≠ .indexed name index) → f item = item

theorem keepsItems_of_reindexes {f : Item → Item} {g : List UInt8 → List UInt8 → List UInt8}
    (hf : Reindexes f g) : KeepsItems f := by
  refine ⟨fun item => ?_, fun item w => ?_, fun item b => ?_⟩
  all_goals rcases item with w' | ⟨name, index⟩ | b' | b' | _ | _
  case refine_1.indexed | refine_2.indexed | refine_3.indexed =>
    rw [hf.indexed]
    first
      | rfl
      | simp only [reduceCtorEq]
  all_goals
    rw [hf.other _ (by simp only [ne_eq, reduceCtorEq, not_false_eq_true, implies_true])]

theorem reindexes_face : Reindexes Item.face (fun _ _ => []) where
  indexed _ _ := rfl
  other item hitem := by
    cases item with
    | indexed name index => exact absurd rfl (hitem name index)
    | _ => rfl

theorem keepsItems_face : KeepsItems Item.face := keepsItems_of_reindexes reindexes_face

/-- A reference behind a word stands between the references before and behind
    it, which are the same whatever its index. -/
theorem referencesFrom_split (front rest : List Item) (u name before : List UInt8) :
    ∃ found, ∀ index, referencesFrom before (front ++ .word u :: .indexed name index :: rest) =
      found ++ ⟨u, name, index, true⟩ :: referencesFrom [] rest := by
  induction front generalizing before with
  | nil => exact ⟨[], fun index => rfl⟩
  | cons item front ih =>
      cases item with
      | word w =>
          rcases ih w with ⟨found, hfound⟩
          refine ⟨spacedReference before w (front ++ .word u :: .indexed name [] :: rest) ++ found,
            fun index => ?_⟩
          -- What follows a word is looked at without the indices.
          have hsame : (front ++ .word u :: .indexed name index :: rest).map Item.face =
              (front ++ .word u :: .indexed name [] :: rest).map Item.face := by
            simp only [List.map_append, List.map_cons, Item.face]
          have hface : spacedReference before w (front ++ .word u :: .indexed name index :: rest) =
              spacedReference before w (front ++ .word u :: .indexed name [] :: rest) := by
            rw [← spacedReference_map keepsItems_face, hsame, spacedReference_map keepsItems_face]
          rw [List.cons_append, referencesFrom, hface, hfound, List.append_assoc]
      | indexed other key =>
          rcases ih [] with ⟨found, hfound⟩
          refine ⟨⟨before, other, key, true⟩ :: found, fun index => ?_⟩
          rw [List.cons_append, referencesFrom, hfound, List.cons_append]
      | sym b => exact ih []
      | blank b => exact ih []
      | comment => exact ih []
      | str => exact ih []

section

variable {c : UInt8} {table : List (List UInt8 × List UInt8)}

/-- Change the index of a reference that is written without blanks. -/
def Reference.reindex (g : List UInt8 → List UInt8 → List UInt8) (r : Reference) : Reference :=
  if r.glued = true then { r with index := g r.name r.index } else r

theorem spacedReference_reindex (g : List UInt8 → List UInt8 → List UInt8)
    (before name : List UInt8) (all : List Item) :
    (spacedReference before name all).map (Reference.reindex g) =
      spacedReference before name all := by
  unfold spacedReference
  split
  · rw [List.map_singleton, Reference.reindex, if_neg Bool.false_ne_true]
  · rfl

theorem referencesFrom_reindex {f : Item → Item} {g : List UInt8 → List UInt8 → List UInt8}
    (hf : Reindexes f g) (before : List UInt8) (all : List Item) :
    referencesFrom before (all.map f) = (referencesFrom before all).map (Reference.reindex g) := by
  induction all generalizing before with
  | nil => rfl
  | cons item rest ih =>
      rw [List.map_cons]
      cases item with
      | word w =>
          rw [hf.other _ (fun _ _ => by simp only [ne_eq, reduceCtorEq, not_false_eq_true]),
            referencesFrom, referencesFrom, List.map_append, ih,
            spacedReference_map (keepsItems_of_reindexes hf), spacedReference_reindex]
      | indexed name index =>
          rw [hf.indexed, referencesFrom, referencesFrom, List.map_cons, ih, Reference.reindex,
            if_pos rfl]
      | sym b | blank b | comment | str =>
          rw [hf.other _ (fun _ _ => by simp only [ne_eq, reduceCtorEq, not_false_eq_true])]
          exact ih []

/-- Changing the indices of items is changing the indices of their
    references. -/
theorem references_reindex {f : Item → Item} {g : List UInt8 → List UInt8 → List UInt8}
    (hf : Reindexes f g) (all : List Item) :
    referencesOf (all.map f) = (referencesOf all).map (Reference.reindex g) := by
  rw [referencesOf, filter_map_gaps (keepsItems_of_reindexes hf), referencesFrom_reindex hf,
    referencesOf]

theorem reindexes_retarget : Reindexes (Item.retarget c table)
    (fun name index => if name.getLast? = some c then (table.lookup index).getD index
      else index) where
  indexed name index := by
    rw [Item.retarget]
    split <;> rfl
  other item hitem := by
    cases item with
    | indexed name index => exact absurd rfl (hitem name index)
    | _ => rfl

/-- Replacing indices in the items is replacing them in the references. -/
theorem references_retarget (all : List Item) :
    referencesOf (all.map (Item.retarget c table)) =
      (referencesOf all).map (Reference.retarget c table) := by
  rw [references_reindex reindexes_retarget]
  refine List.map_congr_left (fun r _ => ?_)
  rw [Reference.reindex, Reference.retarget]
  by_cases hglued : r.glued = true
  · by_cases hname : r.name.getLast? = some c
    · rw [if_pos hglued, if_pos hname, if_pos ⟨hglued, hname⟩]
    · rw [if_pos hglued, if_neg hname, if_neg (fun h => hname h.2)]
  · rw [if_neg hglued, if_neg (fun h => hglued h.1)]

end

end Qdmi.Qasm
