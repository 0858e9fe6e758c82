import ClusterNet.Config.Reader
import ClusterNet.Config.Writer
import Mathlib.Data.List.Forall2

/-!
# Lines of a document

A text that is written in quotes is read as that text, whatever characters are in it, and a line with
a key and a text as the assignment of the text to the key.
-/

namespace ClusterNet.Toml

open Text Config

variable {c : Char} {cs done rest : List Char}

/-! ## Quoted texts -/

theorem basic_plain (hquote : c ≠ '"') (hslash : c ≠ '\\') (hplain : isPlain c = true) (done rest : List Char) :
    basic done (c :: rest) = basic (c :: done) rest := by
  rw [basic.eq_def]
  split
  case h_6 =>
    rename_i heq
    obtain ⟨rfl, rfl⟩ := List.cons.inj heq
    rw [if_pos hplain]
  all_goals
    rename_i heq
    cases heq
  all_goals contradiction

theorem basic_marked (h : c = '"' ∨ c = '\\') (done rest : List Char) :
    basic done ('\\' :: c :: rest) = basic (c :: done) rest := by
  rcases h with rfl | rfl <;> rw [basic.eq_def] <;> rfl

theorem basic_control (h : c.toNat < 0x20 ∨ c.toNat = 0x7F) (done rest : List Char) :
    basic done ('\\' :: 'u' :: (hexDigits 4 c.toNat ++ rest)) = basic (c :: done) rest := by
  have hall : ∀ n < 128, n < 0x20 ∨ n = 0x7F →
      (hexDigits 4 n).length = 4 ∧ codePoint? (hexDigits 4 n) = some (Char.ofNat n) := by
    decide +kernel
  obtain ⟨hlength, hpoint⟩ := hall c.toNat (by omega) h
  rw [Char.ofNat_toNat] at hpoint
  match hexDigits 4 c.toNat, hlength, hpoint with
  | [p, q, r, s], _, hpoint =>
    rw [List.cons_append, List.cons_append, List.cons_append, List.cons_append, List.nil_append, basic, hpoint]

theorem basic_escaped (c : Char) (done rest : List Char) :
    basic done (escaped c ++ rest) = basic (c :: done) rest := by
  unfold escaped
  split
  · rename_i hmarked
    exact basic_marked hmarked done rest
  split
  · rename_i hcontrol
    exact basic_control hcontrol done rest
  · rename_i hmarked hcontrol
    rw [not_or] at hmarked hcontrol
    refine basic_plain hmarked.1 hmarked.2 ?_ done rest
    simp [isPlain]
    omega

theorem basic_flatMap_escaped (cs done rest : List Char) :
    basic done (cs.flatMap escaped ++ '"' :: rest) = some (done.reverse ++ cs, rest) := by
  induction cs generalizing done with
  | nil => simp [basic]
  | cons c cs ih =>
    rw [List.flatMap_cons, List.append_assoc, basic_escaped, ih]
    simp

theorem oneLine_quotedChars (s : String) (rest : List Char) :
    oneLine (quotedChars s ++ rest) = some (s, rest) := by
  rw [quotedChars, List.cons_append, List.append_assoc, List.singleton_append, oneLine, basic_flatMap_escaped]
  simp

theorem head?_escaped (c : Char) : ∃ d ds, escaped c = d :: ds ∧ d ≠ '"' := by
  unfold escaped
  split
  · exact ⟨_, _, rfl, by decide⟩
  split
  · exact ⟨_, _, rfl, by decide⟩
  · rename_i hmarked hcontrol
    exact ⟨c, [], rfl, (not_or.mp hmarked).1⟩

/-- Two quotes in a row are the empty text, unless a third one follows. -/
theorem quotation_quotedChars (s : String) (hrest : rest.head? ≠ some '"') :
    quotation (quotedChars s ++ rest) = some (s, rest) := by
  rw [← oneLine_quotedChars s rest, quotation.eq_def]
  split
  · rename_i heq
    cases hs : s.toList with
    | nil =>
      rw [quotedChars, hs] at heq
      have hthird := (List.cons.inj (List.cons.inj heq).2).2
      exact absurd (by rw [show rest = _ from hthird]; rfl) hrest
    | cons c cs =>
      obtain ⟨d, ds, hd, hne⟩ := head?_escaped c
      rw [quotedChars, hs, List.flatMap_cons, hd] at heq
      exact absurd (List.cons.inj (List.cons.inj heq).2).1 hne
  · rename_i heq
    cases heq
  · rfl

/-! ## Lines -/

theorem value_quotedChars (room : Nat) (s : String) (hrest : rest.head? ≠ some '"') :
    value room (quotedChars s ++ rest) = some (.string s, rest) := by
  have hvalue : value room (quotedChars s ++ rest) =
      (quotation (quotedChars s ++ rest)).map fun found => (.string found.1, found.2) := by
    rw [value.eq_def]
    rfl
  rw [hvalue, quotation_quotedChars s hrest]
  rfl

theorem simpleKey_quotedChars (s : String) (rest : List Char) :
    simpleKey (quotedChars s ++ rest) = some (s, rest) := oneLine_quotedChars s rest

theorem key_quotedChars (s : String) (rest : List Char) :
    key (quotedChars s ++ ' ' :: '=' :: rest) = some (([], s), '=' :: rest) := by
  have hparts (rounds : Nat) :
      keyParts (rounds + 1) (quotedChars s ++ ' ' :: '=' :: rest) = some ([s], '=' :: rest) := by
    have hskip : skipSpace (quotedChars s ++ ' ' :: '=' :: rest) = quotedChars s ++ ' ' :: '=' :: rest := rfl
    rw [keyParts, hskip, simpleKey_quotedChars]
    rfl
  unfold key
  rw [show (quotedChars s ++ ' ' :: '=' :: rest).length = _ + 1 from rfl, hparts]
  rfl

/-- A line from which a statement is read, whatever comes after it. -/
def IsLine (line : List Char) (st : Statement) : Prop :=
  (line.head? = some '"' ∨ line.head? = some '[') ∧ ∀ rest, statement (line ++ rest) = some (st, rest)

theorem isLine_textLine (k s : String) : IsLine (textLine k s) (.assign [] k (.string s)) := by
  refine ⟨.inl rfl, fun rest => ?_⟩
  have hline : textLine k s ++ rest =
      quotedChars k ++ ' ' :: '=' :: ' ' :: (quotedChars s ++ '\n' :: rest) := by
    simp [textLine]
  have hstatement : statement (quotedChars k ++ ' ' :: '=' :: ' ' :: (quotedChars s ++ '\n' :: rest)) =
      (key (quotedChars k ++ ' ' :: '=' :: ' ' :: (quotedChars s ++ '\n' :: rest))).bind fun found =>
        (char '=' found.2).bind fun equals =>
          (value (depthLimit - 1) (skipSpace equals.2)).bind fun v =>
            (trailing v.2).bind fun rest => some (.assign found.1.1 found.1.2 v.1, rest) := rfl
  have hskip : skipSpace (' ' :: (quotedChars s ++ '\n' :: rest)) = quotedChars s ++ '\n' :: rest := rfl
  have hvalue : value (depthLimit - 1) (quotedChars s ++ '\n' :: rest) = some (.string s, '\n' :: rest) :=
    value_quotedChars _ s (by simp)
  rw [hline, hstatement, key_quotedChars]
  simp only [Option.bind_some, char, if_true, hskip, hvalue]
  rfl

theorem statementsIn_line {line : List Char} {st : Statement} (hline : IsLine line st) (rounds : Nat)
    (rest : List Char) :
    statementsIn (rounds + 1) (line ++ rest) = (statementsIn rounds rest).map (st :: ·) := by
  obtain ⟨hstart, hstatement⟩ := hline
  have hread := hstatement rest
  rcases line with - | ⟨c, cs⟩
  · simp at hstart
  · rw [List.cons_append] at hread ⊢
    obtain rfl | rfl : c = '"' ∨ c = '[' := by simpa using hstart
    · simp [statementsIn, skipSpace, isSpace, hread]
    · simp [statementsIn, skipSpace, isSpace, hread]

theorem statementsIn_lines {lines : List (List Char)} {sts : List Statement}
    (hlines : List.Forall₂ IsLine lines sts) {rounds : Nat} (hrounds : lines.length ≤ rounds) :
    statementsIn rounds lines.flatten = some sts := by
  induction hlines generalizing rounds with
  | nil => cases rounds <;> rfl
  | cons hline _ ih =>
    obtain ⟨rounds, rfl⟩ := Nat.exists_eq_add_of_le' (Nat.le_trans (Nat.le_add_left 1 _) hrounds)
    rw [List.flatten_cons, statementsIn_line hline, ih (Nat.le_of_succ_le_succ hrounds)]
    rfl

/-- Lines are not empty, so that a document has no more lines than characters. -/
theorem length_le_of_lines {lines : List (List Char)} {sts : List Statement}
    (hlines : List.Forall₂ IsLine lines sts) : lines.length ≤ lines.flatten.length := by
  induction hlines with
  | nil => exact Nat.le_refl 0
  | @cons line st lines sts hline _ ih =>
    have hpos : 0 < line.length := by
      rcases line with - | ⟨c, cs⟩
      · simpa using hline.1
      · simp
    rw [List.length_cons, List.flatten_cons, List.length_append]
    omega

theorem statements?_lines {lines : List (List Char)} {sts : List Statement}
    (hlines : List.Forall₂ IsLine lines sts) : statements? (String.ofList lines.flatten) = some sts := by
  have hmark : dropMark lines.flatten = lines.flatten := by
    cases hlines with
    | nil => rfl
    | @cons line st lines sts hline _ =>
      rcases line with - | ⟨c, cs⟩
      · simp [IsLine] at hline
      · rcases hline.1 with h | h <;> cases h <;> rfl
  rw [statements?, String.toList_ofList, hmark]
  exact statementsIn_lines hlines (length_le_of_lines hlines)

/-! ## The address of the node -/

/-- The lines of a configuration of which the address of the node is given. -/
def nodeLines (a : Address) : List (List Char) :=
  [textLine "cluster_id" "raftlink", headerLine "[node]", textLine "address" a.text,
    headerLine "[node.properties]", headerLine "[messaging]", numberLine "connection_pool_size" 8,
    numberLine "connect_timeout_ms" 5000, numberLine "request_timeout_ms" 10000,
    numberLine "max_frame_bytes" 67108864, numberLine "outbound_queue_size" 1024,
    headerLine "[event_service]", numberLine "subscription_sync_interval_ms" 1000]

def nodeStatements (a : Address) : List Statement :=
  [.assign [] "cluster_id" (.string "raftlink"), .header [] "node", .assign [] "address" (.string a.text),
    .header ["node"] "properties", .header [] "messaging", .assign [] "connection_pool_size" (.integer 8),
    .assign [] "connect_timeout_ms" (.integer 5000), .assign [] "request_timeout_ms" (.integer 10000),
    .assign [] "max_frame_bytes" (.integer 67108864), .assign [] "outbound_queue_size" (.integer 1024),
    .header [] "event_service", .assign [] "subscription_sync_interval_ms" (.integer 1000)]

theorem isLine_nodeLines (a : Address) : List.Forall₂ IsLine (nodeLines a) (nodeStatements a) := by
  refine .cons (isLine_textLine _ _) <| .cons ⟨.inr rfl, fun _ => rfl⟩ <| .cons (isLine_textLine _ _) ?_
  -- the other lines are the same for every address
  iterate 9 refine .cons ⟨by first | exact .inl rfl | exact .inr rfl, fun _ => rfl⟩ ?_
  exact .nil

theorem text_node (a : Address) : Config.text { node := { address := a } } = String.ofList (nodeLines a).flatten := by
  simp [Config.text, memberChars, messagingChars, nodeLines, optionalLine, Table.empty]

theorem set_node (c : Config) (s : String) :
    c.set ("node", .table [("address", .string s), ("properties", .table [])]) =
      ((Address.parse s).mapError (.address s)).map fun b => { c with node := { address := b } } := by
  have haddress : setMember {} ("address", .string s) =
      ((Address.parse s).mapError (.address s)).map fun b => { address := b } := by
    simp only [setMember, asAddress]
    rfl
  have hset : c.set ("node", .table [("address", .string s), ("properties", .table [])]) =
      ([("address", .string s), ("properties", .table [])].foldlM setMember {} >>= fun m =>
        pure { c with node := m }) := rfl
  rw [hset, List.foldlM_cons, haddress]
  cases Address.parse s with
  | error r => rfl
  | ok b => rfl

theorem parse_text_node (a : Address) :
    Config.parse (Config.text { node := { address := a } }) =
      ((Address.parse a.text).mapError (.address a.text)).map fun b => { node := { address := b } } := by
  have hentries : ofStatements? (nodeStatements a) = some
      [("cluster_id", .string "raftlink"), ("node", .table [("address", .string a.text), ("properties", .table [])]),
        ("messaging", .table [("connection_pool_size", .integer 8), ("connect_timeout_ms", .integer 5000),
          ("request_timeout_ms", .integer 10000), ("max_frame_bytes", .integer 67108864),
          ("outbound_queue_size", .integer 1024)]),
        ("event_service", .table [("subscription_sync_interval_ms", .integer 1000)])] := rfl
  have hcluster : Config.set {} ("cluster_id", .string "raftlink") = pure {} := rfl
  rw [Config.parse, text_node, parse?, statements?_lines (isLine_nodeLines a), Option.bind_some, hentries]
  simp only [List.foldlM_cons, hcluster, set_node, pure_bind]
  cases Address.parse a.text with
  | error r => rfl
  | ok b => rfl

end ClusterNet.Toml
