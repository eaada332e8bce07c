/-
  The text of a query that the grammar is given. A statement without an envelope and without a window
  clause is written back as a whole (`parse_of_query`) and scanned once more. Its tokens are settled
  (`settled_of_scan`), so it is known which of them come out the same.

  For a query that selects one constant the rest of the way is followed, too. Quotes in the constant
  are doubled in the text that is scanned first, but not in the one that is scanned again: a constant
  with a quote becomes another one, or several (`onlyQuery_constants`), or nothing at all.
-/
import StreamSql.Proofs.Script.Constant
import StreamSql.Proofs.Script.WindowClause
import StreamSql.Proofs.Token.Rescan

namespace StreamSql

open Outcome Scan

namespace Script

/-! ## The tokens of a statement -/

/-- The statements of a text have the tokens that scanning gives, and the first of them those that
    the text begins with. -/
theorem writes_of_lexemes {n : Nat} {c : Cursor} {ls : List Lexeme} (h : lexemes n c = .ok ls)
    (hn : c.rest.length ≤ n) :
    ∃ first others, chunks ls = first :: others ∧ Writes c.rest (first.map Lexeme.token) ∧
      ∀ chunk ∈ others, Settled (chunk.map Lexeme.token) := by
  induction n generalizing c ls with
  | zero =>
      cases h
      have hnil : c.rest = [] := List.eq_nil_of_length_eq_zero (Nat.le_zero.mp hn)
      exact ⟨[], [], rfl, by rw [hnil]; exact ⟨.done, trivial, by simp [written]⟩, by simp⟩
  | succ n ih =>
      by_cases hls : ls = []
      · subst hls
        have hnil : c.rest = [] := by
          unfold lexemes at h
          split at h
          · assumption
          · obtain ⟨⟨t, k⟩, _, h⟩ := bind_eq_ok.mp h
            obtain ⟨ls', _, heq⟩ := bind_eq_ok.mp h
            cases heq
        exact ⟨[], [], rfl, by rw [hnil]; exact ⟨.done, trivial, by simp [written]⟩, by simp⟩
      · obtain ⟨a, r, t, k, ls', hcs, htoken, hls', rfl⟩ := lexemes_succ h hls
        have hread := token_read htoken
        rw [← hcs] at hread
        have hshorter := hread.shorter
        obtain ⟨first, others, hchunks, hwrites, hsettled⟩ := ih hls' (by omega)
        by_cases hsemi : t = .symbol .semicolon
        · refine ⟨[], first :: others, ?_, ?_, ?_⟩
          · simp [chunks, hsemi, hchunks]
          · subst hsemi
            refine ⟨?_, trivial, by simp [written]⟩
            rcases hread.source with hsource | ⟨hturned, _⟩
            · rw [hsource]
              exact .stop
            · have hturned : Turned c.rest [';'] := hturned
              generalize c.rest = cs at hturned
              cases hturned with
              | quote mark => simp at mark
          · rintro chunk hmem
            rcases List.mem_cons.mp hmem with rfl | hmem
            · exact hwrites.settled
            · exact hsettled chunk hmem
        · refine ⟨⟨t, c.position⟩ :: first, others, ?_, .cons hread hwrites, hsettled⟩
          simp [chunks, hsemi, hchunks]

theorem settled_of_scan {text : String} {ls : List Lexeme} (h : Lexeme.scan text = .ok ls)
    {chunk : List Lexeme} (hchunk : chunk ∈ chunks ls) : Settled (chunk.map Lexeme.token) := by
  obtain ⟨first, others, hchunks, hwrites, hsettled⟩ := writes_of_lexemes h (Nat.le_refl _)
  rw [hchunks] at hchunk
  rcases List.mem_cons.mp hchunk with rfl | hmem
  · exact hwrites.settled
  · exact hsettled chunk hmem

/-- A statement that is a query as it stands and has no window clause is written back as a whole, and
    it is this text that the grammar is given. -/
theorem parse_of_query {chunk : List Lexeme} {body remaining : List Token}
    (hsplit : Envelope.split (chunk.map Lexeme.token) = .ok (.query, body))
    (hwindow : WindowClause.extract body = .ok (none, remaining)) (limit : Nat) :
    Entry.parse limit chunk = (onlyQuery limit (Token.render (chunk.map Lexeme.token))).map fun q =>
      { text := Text.trim (Token.render (chunk.map Lexeme.token)), envelope := .query, window := none,
        words := chunk.filterMap wordOf?, query := q } := by
  obtain rfl : body = chunk.map Lexeme.token := Envelope.body_of_query hsplit
  obtain ⟨rfl, _⟩ := WindowClause.extract_eq_none.mp hwindow
  simp only [Entry.parse, hsplit, hwindow, orFail, bind, Except.bind, Option.map_none, Nat.sub_self,
    List.drop_zero, wordsOutside_eq hwindow, WindowClause.cut]
  cases onlyQuery limit (Token.render (chunk.map Lexeme.token)) <;> rfl

theorem scan_render (ts : List Token) :
    Lexeme.scan (Token.render ts) = lexemes (written ts).length (.start (written ts)) := by
  simp only [Lexeme.scan, Token.toList_render]

theorem chunks_eq {ls : List Lexeme} (h : ∀ l ∈ ls, l.token ≠ .symbol .semicolon) :
    chunks ls = [ls] := by
  induction ls with
  | nil => rfl
  | cons l ls ih =>
      rw [List.forall_mem_cons] at h
      rw [chunks, if_neg h.1, ih h.2]

/-- What becomes of a script that is one query. -/
theorem prepare_query {text : String} {ls : List Lexeme} (hscan : Lexeme.scan text = .ok ls)
    (hsemi : ∀ l ∈ ls, l.token ≠ .symbol .semicolon) (hfilled : ls.all (·.token.isGap) = false)
    {body remaining : List Token}
    (hsplit : Envelope.split (ls.map Lexeme.token) = .ok (.query, body))
    (hwindow : WindowClause.extract body = .ok (none, remaining))
    (limit : Nat) (ps : List Prepared) : prepare limit text = .ok ps ↔
      ∃ g q st, onlyQuery limit (Token.render (ls.map Lexeme.token)) = .ok g ∧
        queryOf limit g (.start (ls.filterMap wordOf?)) = .ok (q, st) ∧
        ps = [⟨Text.trim (Token.render (ls.map Lexeme.token)),
          .query { q with window := none }⟩] := by
  simp only [prepare, parse, hscan, chunks_eq hsemi, List.filter, hfilled, Bool.not_false,
    List.mapM_cons, List.mapM_nil, parse_of_query hsplit hwindow limit]
  cases onlyQuery limit (Token.render (ls.map Lexeme.token)) with
  | error e => simp [bind, Except.bind, Except.map]
  | ok g =>
      cases hq : queryOf limit g (.start (ls.filterMap wordOf?)) with
      | error e =>
          simp [Entry.statement, StateT.run, hq, Except.map, bind, Except.bind, pure, Except.pure]
      | ok found =>
          obtain ⟨q, st⟩ := found
          simp [Entry.statement, Envelope.statement, StateT.run, hq, Except.map, bind, Except.bind,
            pure, Except.pure, eq_comm]

/-! ## A query for a constant -/

/-- The text of a query for a constant. The quotes in the constant are doubled. -/
def constantQuery (s : String) : String :=
  "SELECT '" ++ String.ofList (doubled '\x27' s.toList) ++ "' FROM t"

/-- The tokens of it. -/
def constantTokens (s : String) : List Token :=
  [.word "SELECT" none, .gap .space, .string s, .gap .space, .word "FROM" none, .gap .space,
    .word "t" none]

theorem gives_space (R : List Char) : Gives (' ' :: R) (.gap .space) R :=
  fun _ => ⟨' ', R, _, rfl, rfl, rfl⟩

theorem gives_wordSpace {v : String} (h : WordShape v.toList) (R : List Char) :
    Gives (v.toList ++ ' ' :: R) (.word v none) (' ' :: R) := by
  refine gives_word h ?_ ?_
  · rintro c hc
    cases hc
    rfl
  · rintro a -
    simp [leadsIn]

theorem gives_select (R : List Char) :
    Gives ("SELECT".toList ++ ' ' :: R) (.word "SELECT" none) (' ' :: R) :=
  gives_wordSpace (v := "SELECT")
    (.plain (by decide) (by decide) (by decide) (List.all_eq_true.mp (by decide))) R

theorem scans_source : Scans " FROM t".toList
    [.gap .space, .word "FROM" none, .gap .space, .word "t" none] := by
  have hfrom : Gives "FROM t".toList (.word "FROM" none) " t".toList :=
    gives_wordSpace (v := "FROM")
      (.plain (by decide) (by decide) (by decide) (List.all_eq_true.mp (by decide))) ['t']
  have hsource : Gives "t".toList (.word "t" none) [] :=
    gives_word (v := "t") (.plain (by decide) (by decide) (by decide) (by simp)) (by simp [Clear])
      (by simp [leadsIn])
  exact .cons (gives_space _) (.cons hfrom (.cons (gives_space _) (.cons hsource .nil)))

theorem toList_constantQuery (s : String) : (constantQuery s).toList =
    "SELECT".toList ++
      ' ' :: '\x27' :: (doubled '\x27' s.toList ++ '\x27' :: " FROM t".toList) := by
  simp [constantQuery]

theorem scans_constant (s : String) : Scans (constantQuery s).toList (constantTokens s) := by
  have hstring := gives_string s (R := " FROM t".toList) (by decide)
  rw [toList_constantQuery]
  exact .cons (gives_select _) (.cons (gives_space _) (.cons hstring scans_source))

theorem parts_constant (s : String) :
    Envelope.split (constantTokens s) = .ok (.query, constantTokens s) ∧
      WindowClause.extract (constantTokens s) = .ok (none, constantTokens s) :=
  ⟨rfl, rfl⟩

theorem prepare_constant (s : String) : ∃ text words, ∀ limit ps,
    prepare limit (constantQuery s) = .ok ps ↔
      ∃ g q st, onlyQuery limit (Token.render (constantTokens s)) = .ok g ∧
        queryOf limit g (.start words) = .ok (q, st) ∧
        ps = [⟨text, .query { q with window := none }⟩] := by
  obtain ⟨ls, hls, hmap⟩ := scans_constant s _ ⟨1, 1⟩ (Nat.le_refl _)
  have hscan : Lexeme.scan (constantQuery s) = .ok ls := hls
  have hsemi : ∀ l ∈ ls, l.token ≠ .symbol .semicolon := by
    intro l hl heq
    have hmem : Token.symbol .semicolon ∈ constantTokens s := by
      rw [← hmap, ← heq]
      exact List.mem_map_of_mem hl
    simp [constantTokens] at hmem
  have hfilled : ls.all (·.token.isGap) = false := by
    have hall : (ls.map Lexeme.token).all Token.isGap = false := by
      rw [hmap]
      rfl
    rwa [List.all_map] at hall
  obtain ⟨hsplit, hwindow⟩ := parts_constant s
  refine ⟨Text.trim (Token.render (ls.map Lexeme.token)), ls.filterMap wordOf?, fun limit ps => ?_⟩
  rw [prepare_query hscan hsemi hfilled (hmap ▸ hsplit) hwindow, hmap]

/-- The relation that the constant is read from. -/
def constantTable : Grammar.Factor where
  form := .table [⟨"t", none⟩] {}

/-- The tree of a query for constants. -/
def constantTree (ss : List String) : Grammar.Query where
  body := .select {
    items := ss.map fun s => .expr (.value (.string s)) none
    sources := [⟨constantTable, []⟩] }

section

set_option maxRecDepth 100000

theorem parseAll_constant (s : String) (n : Nat) :
    Grammar.Sentence.parseAll (n + 3)
      [.word "SELECT" none, .string s, .word "FROM" none, .word "t" none] =
      .ok [.query (constantTree [s])] :=
  rfl

theorem parseAll_constants (s u : String) (n : Nat) :
    Grammar.Sentence.parseAll (n + 3) [.word "SELECT" none, .string s, .symbol .comma, .string u,
        .word "FROM" none, .word "t" none] =
      .ok [.query (constantTree [s, u])] :=
  rfl

end

theorem onlyQuery_of_scans {text : String} {ts : List Token} (hscans : Scans text.toList ts)
    {limit : Nat} {q : Grammar.Query}
    (hparse : Grammar.Sentence.parseAll limit (ts.filter (!·.isGap)) = .ok [.query q]) :
    onlyQuery limit text = .ok q := by
  obtain ⟨ls, hls, hmap⟩ := hscans _ ⟨1, 1⟩ (Nat.le_refl _)
  have hscan : Lexeme.scan text = .ok ls := hls
  simp only [onlyQuery, sentences, hscan, hmap, hparse, bind, Except.bind, pure, Except.pure]

/-- The text that the grammar is given. -/
theorem toList_render_constant (s : String) : (Token.render (constantTokens s)).toList =
    "SELECT".toList ++ ' ' :: '\x27' :: (s.toList ++ '\x27' :: " FROM t".toList) := by
  rw [Token.toList_render]
  simp [written, constantTokens, Token.text, Gap.text]

/-- A constant without a quote is found again. -/
theorem onlyQuery_constant {s : String} (hs : '\x27' ∉ s.toList) (n : Nat) :
    onlyQuery (n + 3) (Token.render (constantTokens s)) = .ok (constantTree [s]) := by
  have hscans := scans_constant s
  rw [toList_constantQuery, doubled_of_not_mem hs, ← toList_render_constant] at hscans
  exact onlyQuery_of_scans hscans (parseAll_constant s n)

/-- A constant with a comma in quotes is taken apart. -/
theorem onlyQuery_constants {s u : String} (hs : '\x27' ∉ s.toList) (hu : '\x27' ∉ u.toList)
    (n : Nat) :
    onlyQuery (n + 3) (Token.render (constantTokens (s ++ "', '" ++ u))) =
      .ok (constantTree [s, u]) := by
  have hsecond := gives_string u (R := " FROM t".toList) (by decide)
  rw [doubled_of_not_mem hu] at hsecond
  have hcomma (R : List Char) : Gives (',' :: ' ' :: R) (.symbol .comma) (' ' :: R) := by
    refine gives_symbol (s := .comma) fun c hc => Bool.eq_false_iff.mpr fun hgrows => ?_
    cases hc
    simpa using Symbol.mem_of_grows hgrows
  have hfirst (R : List Char) : Gives ('\x27' :: (s.toList ++ '\x27' :: ',' :: R)) (.string s)
      (',' :: R) := by
    have hgives := gives_string s (R := ',' :: R) (by simp)
    rw [doubled_of_not_mem hs] at hgives
    exact hgives
  have hscans : Scans (Token.render (constantTokens (s ++ "', '" ++ u))).toList
      (.word "SELECT" none :: .gap .space :: .string s :: .symbol .comma :: .gap .space ::
        .string u :: [.gap .space, .word "FROM" none, .gap .space, .word "t" none]) := by
    have htext : (s ++ "', '" ++ u).toList ++ '\x27' :: " FROM t".toList =
        s.toList ++ '\x27' :: ',' :: ' ' :: '\x27' :: (u.toList ++ '\x27' :: " FROM t".toList) := by
      simp
    rw [toList_render_constant, htext]
    exact .cons (gives_select _) (.cons (gives_space _) (.cons (hfirst _) (.cons (hcomma _)
      (.cons (gives_space _) (.cons hsecond scans_source)))))
  exact onlyQuery_of_scans hscans (parseAll_constants s u n)

theorem locate_eq_ok (name : String) (st : Lookup) :
    ∃ loc st', locate name st = .ok (loc, st') := by
  cases h : st.next? (Text.lower name) with
  | none =>
      refine ⟨none, st, stateBind_eq_ok.mpr ⟨st, st, rfl, ?_⟩⟩
      simp only [h]
      rfl
  | some place =>
      refine ⟨some place, { st with seen := Text.lower name :: st.seen },
        stateBind_eq_ok.mpr ⟨st, st, rfl, ?_⟩⟩
      simp only [h]
      rfl

theorem selectItems_constants (ss : List String) (n : Nat) (st : Lookup) :
    selectItems (n + 1) (ss.map fun s => .expr (.value (.string s)) none) st =
      .ok (ss.map fun s => .expr (.literal none (.string s)) none, st) := by
  induction ss with
  | nil => rfl
  | cons s ss ih => exact stateBind_eq_ok.mpr ⟨_, st, rfl, stateBind_eq_ok.mpr ⟨_, st, ih, rfl⟩⟩

theorem queryOf_constants (ss : List String) (n : Nat) (st : Lookup) : ∃ q st',
    queryOf (n + 1) (constantTree ss) st = .ok (q, st') ∧
      q.select = ss.map fun s => .expr (.literal none (.string s)) none := by
  obtain ⟨loc, st', hloc⟩ := locate_eq_ok "t" st
  have htable : tableRef constantTable st = .ok ({ name := "t", location := loc }, st') :=
    stateBind_eq_ok.mpr ⟨loc, st', hloc, rfl⟩
  have hsource : relation (n + 1) [⟨constantTable, []⟩] st =
      .ok (.table { name := "t", location := loc }, st') :=
    stateBind_eq_ok.mpr ⟨_, st', htable, rfl⟩
  exact ⟨_, st', stateBind_eq_ok.mpr ⟨_, st, selectItems_constants ss n st,
    stateBind_eq_ok.mpr ⟨_, st', hsource, rfl⟩⟩, rfl⟩

/-- What the grammar finds is what the query selects. -/
theorem prepare_of_onlyQuery {s : String} {ss : List String} {n : Nat}
    (h : onlyQuery (n + 1) (Token.render (constantTokens s)) = .ok (constantTree ss)) :
    ∃ p q, prepare (n + 1) (constantQuery s) = .ok [p] ∧ p.statement = .query q ∧
      q.select = ss.map fun s => .expr (.literal none (.string s)) none := by
  obtain ⟨text, words, hprepare⟩ := prepare_constant s
  obtain ⟨q, st, hq, hselect⟩ := queryOf_constants ss n (.start words)
  exact ⟨_, _, (hprepare (n + 1) _).mpr ⟨_, q, st, h, hq, rfl⟩, rfl, hselect⟩

/-- Written back, a constant with a quote is scanned as another one. -/
theorem tokens_of_scan {s : String} {ls : List Lexeme}
    (h : Lexeme.scan (Token.render (constantTokens s)) = .ok ls) :
    ∃ u ts, ls.map Lexeme.token = .word "SELECT" none :: .gap .space :: .string u :: ts ∧
      (u = s → '\x27' ∉ s.toList) := by
  rw [Lexeme.scan, toList_render_constant] at h
  obtain ⟨n₁, l₁, ls₁, hn₁, h₁, rfl⟩ := lexemes_of_gives (gives_select _) (Nat.le_refl _) h
  obtain ⟨n₂, l₂, ls₂, hn₂, h₂, rfl⟩ := lexemes_of_gives (gives_space _) hn₁ h₁
  cases n₂ with
  | zero => cases hn₂
  | succ n₂ =>
      obtain ⟨t, k, ls₃, htoken, _, rfl⟩ := lexemes_cons h₂
      obtain ⟨⟨u, k'⟩, hquoted, heq⟩ := bind_eq_ok.mp htoken
      cases heq
      refine ⟨u, ls₃.map Lexeme.token, rfl, ?_⟩
      rintro rfl
      exact not_mem_of_quoted hquoted rfl (by decide)

theorem leads_of_onlyQuery {limit : Nat} {s : String} {g : Grammar.Query}
    (h : onlyQuery limit (Token.render (constantTokens s)) = .ok g) :
    ∃ u, g.body.Leads u ∧ (u = s → '\x27' ∉ s.toList) := by
  obtain ⟨ss, hss, h⟩ := bind_eq_ok.mp h
  have hone : ss = [.query g] := by
    split at h <;> cases h
    rfl
  unfold sentences at hss
  split at hss
  · cases hss
  · rename_i ls hscan
    obtain ⟨u, ts, htokens, hu⟩ := tokens_of_scan hscan
    have hsignificant : (ls.map Lexeme.token).filter (!·.isGap) =
        .word "SELECT" none :: .string u :: ts.filter (!·.isGap) := by
      rw [htokens]
      rfl
    rw [hsignificant] at hss
    split at hss
    · rename_i hparse
      obtain ⟨q, others, rfl, hleads⟩ := Grammar.leading_string hparse
      rw [hone] at hss
      cases hss
      exact ⟨u, hleads, hu⟩
    · cases hss
    · cases hss

theorem not_mem_of_prepare {s : String} {limit : Nat} {p : Prepared} {q : Query}
    (h : prepare limit (constantQuery s) = .ok [p]) (hstatement : p.statement = .query q)
    (hselect : q.select = [.expr (.literal none (.string s)) none]) : '\x27' ∉ s.toList := by
  obtain ⟨text, words, hprepare⟩ := prepare_constant s
  obtain ⟨g, q', st, hg, hq, heq⟩ := (hprepare limit [p]).mp h
  cases heq
  cases hstatement
  obtain ⟨u, hleads, hu⟩ := leads_of_onlyQuery hg
  refine hu (yields_queryOf hleads _ _ _ hq s none ?_).symm
  rw [hselect]
  rfl

/-! ## Queries written back -/

/-- The grammar is given the text of a query's tokens. Unless it has codes or backslashes in it, its
    tokens are the same again iff no quote stands between plain quotes and no two of them run into
    each other. In particular a constant is what its text says iff it holds no quote. -/
theorem rendered_query (s : String) :
    (∀ {text : String} {ls chunk : List Lexeme} {body remaining : List Token},
      Lexeme.scan text = .ok ls → chunk ∈ chunks ls →
      Envelope.split (chunk.map Lexeme.token) = .ok (.query, body) →
      WindowClause.extract body = .ok (none, remaining) →
      (∀ limit, Entry.parse limit chunk =
        (onlyQuery limit (Token.render (chunk.map Lexeme.token))).map fun q =>
          { text := Text.trim (Token.render (chunk.map Lexeme.token)), envelope := .query,
            window := none, words := chunk.filterMap wordOf?, query := q }) ∧
      ((∀ l ∈ chunk, l.token.Uncoded ∧ l.token ≠ .symbol .backslash) →
        ((∃ ls', Lexeme.scan (Token.render (chunk.map Lexeme.token)) = .ok ls' ∧
            ls'.map Lexeme.token = chunk.map Lexeme.token) ↔
          (∀ l ∈ chunk, l.token.Plain) ∧
            (chunk.map Lexeme.token).IsChain fun t u => ¬t.Clash u))) ∧
    ∀ {limit : Nat}, 3 ≤ limit →
      ((∃ p q, prepare limit (constantQuery s) = .ok [p] ∧ p.statement = .query q ∧
          q.select = [.expr (.literal none (.string s)) none]) ↔ '\x27' ∉ s.toList) := by
  refine ⟨fun hscan hchunk hsplit hwindow => ⟨parse_of_query hsplit hwindow, fun hplain => ?_⟩,
    fun hlimit => ⟨?_, fun hs => ?_⟩⟩
  · have hback : Token.symbol .backslash ∉ List.map Lexeme.token _ := fun hmem => by
      obtain ⟨l, hl, heq⟩ := List.mem_map.mp hmem
      exact (hplain l hl).2 heq
    have hiff := rescan_iff (settled_of_scan hscan hchunk)
      (by simpa using fun l hl => (hplain l hl).1) hback (Nat.le_refl _) ⟨1, 1⟩
    rw [scan_render]
    simpa [Cursor.start] using hiff
  · rintro ⟨p, q, hp, hstatement, hselect⟩
    exact not_mem_of_prepare hp hstatement hselect
  · obtain ⟨n, rfl⟩ := Nat.exists_eq_add_of_le' hlimit
    exact prepare_of_onlyQuery (onlyQuery_constant hs n)

/-- The tokens of a query in which a number runs into the string after it. -/
def runTogether : List Lexeme :=
  [⟨.word "SELECT" none, ⟨1, 1⟩⟩, ⟨.gap .space, ⟨1, 7⟩⟩, ⟨.hex "1F", ⟨1, 8⟩⟩,
    ⟨.string "a", ⟨1, 12⟩⟩, ⟨.gap .space, ⟨1, 15⟩⟩, ⟨.word "FROM" none, ⟨1, 16⟩⟩,
    ⟨.gap .space, ⟨1, 20⟩⟩, ⟨.word "t" none, ⟨1, 21⟩⟩]

theorem rendered_query_runTogether :
    Lexeme.scan "SELECT 0x1F'a' FROM t" = .ok runTogether ∧ runTogether ∈ chunks runTogether ∧
      Envelope.split (runTogether.map Lexeme.token) = .ok (.query, runTogether.map Lexeme.token) ∧
      WindowClause.extract (runTogether.map Lexeme.token) =
        .ok (none, runTogether.map Lexeme.token) ∧
      (¬∃ ls', Lexeme.scan (Token.render (runTogether.map Lexeme.token)) = .ok ls' ∧
        ls'.map Lexeme.token = runTogether.map Lexeme.token) ∧
      (¬∃ p q, prepare 100 (constantQuery "it's") = .ok [p] ∧ p.statement = .query q ∧
        q.select = [.expr (.literal none (.string "it's")) none]) ∧
      ∃ p q, prepare 100 (constantQuery "it is") = .ok [p] ∧ p.statement = .query q ∧
        q.select = [.expr (.literal none (.string "it is")) none] := by
  have hscan : Lexeme.scan "SELECT 0x1F'a' FROM t" = .ok runTogether := by decide +kernel
  have hchunk : runTogether ∈ chunks runTogether := by decide +kernel
  have hsplit : Envelope.split (runTogether.map Lexeme.token) =
      .ok (.query, runTogether.map Lexeme.token) := rfl
  have hwindow : WindowClause.extract (runTogether.map Lexeme.token) =
      .ok (none, runTogether.map Lexeme.token) := rfl
  refine ⟨hscan, hchunk, hsplit, hwindow, fun hsame => ?_, fun hconstant => ?_, ?_⟩
  · have hiff := ((rendered_query "a").1 hscan hchunk hsplit hwindow).2
      (by simp [runTogether, Token.Uncoded])
    simpa [runTogether, Token.Clash] using (hiff.mp hsame).2
  · exact ((rendered_query "it's").2 (by decide)).mp hconstant (by decide)
  · exact ((rendered_query "it is").2 (by decide)).mpr (by decide)

/-- One constant is turned into two. -/
theorem exists_split_constant : ∃ p q,
    prepare 100 "SELECT 'a'', ''b' FROM t" = .ok [p] ∧ p.statement = .query q ∧
      q.select = [.expr (.literal none (.string "a")) none,
        .expr (.literal none (.string "b")) none] := by
  have htext : "SELECT 'a'', ''b' FROM t" = constantQuery ("a" ++ "', '" ++ "b") := by
    decide +kernel
  rw [htext]
  exact prepare_of_onlyQuery (onlyQuery_constants (by decide) (by decide) 97)

end Script
end StreamSql
