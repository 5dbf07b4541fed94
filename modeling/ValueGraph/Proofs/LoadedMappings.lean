/-
  What loading keeps of a mapping.

  The keys of a mapping are documents of their own, and their texts are the
  keys of the object that stands for it.  Entries whose keys have the same text
  fall together: the object has one property for each different text, in the
  place of the first entry with that text and with the value of the last one.
  How a collection that is a key is written as a text is left open (`write?`).

  * `lastValue?`: the value of the last pair with a key;
  * `Heap.Converts`: a value is what a document is converted to, at every
    mapping in it;
  * `Heap.KeepsEntries`: an object has one property for each entry;
  * `Yaml.SameData`: documents that differ in nothing but tags, in the order of
    entries, in keys with the same text and in entries that later ones replace;
  * `Heap.addYamlBy_last_entries`: what loading keeps, and what documents it
    makes equal.
-/
import ValueGraph.Proofs.LoadedDocuments

namespace ValueGraph

/-! ## The last value under a key -/

/-- The value of the last pair with a key. -/
def lastValue? {α β : Type} [DecidableEq α] (key : α) : List (α × β) → Option β
  | [] => none
  | (k, b) :: pairs => (lastValue? key pairs).or (if k = key then some b else none)

section
variable {α β γ κ : Type} [DecidableEq α] [DecidableEq κ] {key : α}

theorem lastValue?_map (f : β → γ) : ∀ pairs : List (α × β),
    lastValue? key (pairs.map fun m => (m.1, f m.2)) = (lastValue? key pairs).map f
  | [] => rfl
  | (k, b) :: pairs => by
    rw [List.map_cons, lastValue?, lastValue?, lastValue?_map f pairs, Option.map_or]
    split <;> rfl

theorem lastValue?_isSome_iff : ∀ {pairs : List (α × β)},
    (lastValue? key pairs).isSome = true ↔ key ∈ pairs.map Prod.fst
  | [] => by simp [lastValue?]
  | (k, b) :: pairs => by
    rw [lastValue?, Option.isSome_or, Bool.or_eq_true, lastValue?_isSome_iff, List.map_cons,
      List.mem_cons, or_comm]
    refine or_congr_left ?_
    split
    next h => simp [h]
    next h => simpa using Ne.symm h

/-- Where keys are distinct, each pair is the last one with its key. -/
theorem lastValue?_of_nodup {b : β} : ∀ {pairs : List (α × β)},
    (pairs.map Prod.fst).Nodup → (key, b) ∈ pairs → lastValue? key pairs = some b
  | (k, c) :: pairs, hnd, hmem => by
    obtain ⟨hk, hnd⟩ := List.nodup_cons.1 hnd
    rw [lastValue?]
    rcases List.mem_cons.1 hmem with heq | hmem
    · cases heq
      have hnone : lastValue? key pairs = none := by
        rw [← Option.not_isSome_iff_eq_none, lastValue?_isSome_iff]
        exact hk
      rw [hnone, if_pos rfl]
      rfl
    · rw [lastValue?_of_nodup hnd hmem]
      rfl

/-- Other names for the keys give the same last values. -/
theorem lastValue?_zip {f : α → κ} (hf : Function.Injective f) :
    ∀ {keys : List α} {pairs : List (κ × β)}, pairs.map Prod.fst = keys.map f →
      lastValue? (f key) pairs = lastValue? key (keys.zip (pairs.map Prod.snd))
  | [], [], _ => rfl
  | k :: keys, (l, b) :: pairs, heq => by
    obtain ⟨rfl, hrest⟩ := List.cons.inj heq
    rw [List.map_cons, List.zip_cons_cons]
    simp only [lastValue?, lastValue?_zip hf hrest, hf.eq_iff]

theorem eraseDups_of_nodup : ∀ {l : List α}, l.Nodup → l.eraseDups = l
  | [], _ => List.eraseDups_nil
  | a :: l, hnd => by
    obtain ⟨ha, hnd⟩ := List.nodup_cons.1 hnd
    rw [List.eraseDups_cons, List.filter_eq_self.2 fun b hb => ?_, eraseDups_of_nodup hnd]
    simpa using fun h : b = a => ha (h ▸ hb)

end

/-! ## Objects from entries -/

namespace PlainObject

variable {prototype : Prototype} {k : Key}

theorem get?_insert_all : ∀ (es : List (Key × Value)) (o : PlainObject),
    (es.foldl (fun o e => (o.insert e.1 e.2).2) o).get? k = (lastValue? k es).or (o.get? k)
  | [], o => rfl
  | (l, v) :: es, o => by
    have hinsert : (o.insert l v).2.get? k = if k = l then some v else o.get? k := by
      rw [get?, insert, find?_define]
      split <;> rfl
    rw [List.foldl_cons, get?_insert_all es, hinsert, lastValue?, Option.or_assoc]
    by_cases hk : k = l
    · rw [if_pos hk, if_pos hk.symm]
      rfl
    · rw [if_neg hk, if_neg (Ne.symm hk)]
      rfl

/-- The later entry counts. -/
theorem get?_ofEntries_last (es : List (Key × Value)) :
    (ofEntries prototype es).get? k = lastValue? k es := by
  rw [ofEntries, get?_insert_all]
  exact Option.or_none

theorem keys_insert_all : ∀ (es : List (Key × Value)) (o : PlainObject),
    (es.foldl (fun o e => (o.insert e.1 e.2).2) o).keys = (o.keys ++ es.map Prod.fst).eraseDups
  | [], o => by rw [List.map_nil, List.append_nil, List.foldl_nil, keys, eraseDups_of_nodup o.nodup]
  | (l, v) :: es, o => by
    rw [List.foldl_cons, keys_insert_all es, insert, keys_define, List.map_cons]
    split
    next hl =>
      rw [List.eraseDups_append, List.eraseDups_append]
      congr 2
      simp [List.removeAll, hl]
    next => rw [List.append_assoc, List.singleton_append]

/-- The earlier entry gives the place. -/
theorem keys_ofEntries (es : List (Key × Value)) :
    (ofEntries prototype es).keys = (es.map Prod.fst).eraseDups :=
  keys_insert_all es _

theorem enumerable_insert_all : ∀ (es : List (Key × Value)) {o : PlainObject},
    (∀ a ∈ o.properties, a.enumerable = true) →
      ∀ a ∈ (es.foldl (fun o e => (o.insert e.1 e.2).2) o).properties, a.enumerable = true
  | [], _, ho => ho
  | (l, v) :: es, o, ho => by
    refine enumerable_insert_all es fun a ha => ?_
    rcases mem_defineIn ha with rfl | ha
    · rfl
    · exact ho a ha

end PlainObject

/-! ## Conversion -/

namespace Yaml

section
variable (write? : Yaml → Option String)

/-- The values of a mapping under the texts of their keys. -/
def members (entries : List (Yaml × Yaml)) : List (String × Yaml) :=
  entries.map fun e => (e.1.keyText write?, e.2)

/-- The texts of the keys of a mapping, in order. -/
def keyTexts (entries : List (Yaml × Yaml)) : List String :=
  entries.map fun e => e.1.keyText write?

theorem keys_members (entries : List (Yaml × Yaml)) :
    (members write? entries).map Prod.fst = keyTexts write? entries := by
  rw [members, List.map_map]
  rfl

end

end Yaml

namespace Heap

/-- **The value is what a document is converted to.**  The object of a mapping
    is of the bare prototype.  It has one enumerable property for each different
    text of a key, in the order in which the texts come first.  The values of
    all entries are converted, and the property of a text holds that of the last
    entry with the text. -/
inductive Converts (write? : Yaml → Option String) (h : Heap) : Yaml → Value → Prop
  | null : Converts write? h .null .null
  | bool (b : Bool) : Converts write? h (.bool b) (.bool b)
  | number (n : YamlNumber) : Converts write? h (.number n) (.number n.value)
  | string (text : String) : Converts write? h (.string text) (.string text)
  | sequence {items : List Yaml} {r : Ref} {values : List Value} :
      h.get? r = some (.array values) → items.length = values.length →
      (∀ (i : Nat) y v, items[i]? = some y → values[i]? = some v → Converts write? h y v) →
      Converts write? h (.sequence items) (.object r)
  | mapping {entries : List (Yaml × Yaml)} {r : Ref} {p : PlainObject} {values : List Value} :
      h.get? r = some (.plain p) → p.prototype = .object →
      p.keys = ((Yaml.keyTexts write? entries).map .name).eraseDups →
      (∀ a ∈ p.properties, a.enumerable = true) →
      (∀ text, p.get? (.name text) =
        lastValue? text ((Yaml.keyTexts write? entries).zip values)) →
      entries.length = values.length →
      (∀ (i : Nat) e v, entries[i]? = some e → values[i]? = some v → Converts write? h e.2 v) →
      Converts write? h (.mapping entries) (.object r)
  | tagged (tag : String) {y : Yaml} {v : Value} : Converts write? h y v →
      Converts write? h (.tagged tag y) v

/-- The object has one property for each entry of a mapping, which holds what
    the value of the entry is converted to. -/
def KeepsEntries (write? : Yaml → Option String) (h : Heap) (entries : List (Yaml × Yaml))
    (p : PlainObject) : Prop :=
  List.Forall₂ (fun e a => a.key = .name (e.1.keyText write?) ∧ a.enumerable = true ∧
    h.Converts write? e.2 a.value) entries p.properties

variable {write? : Yaml → Option String} {h g : Heap} {y : Yaml} {v : Value}
  {entries : List (Yaml × Yaml)}

/-- What a heap holds of a document stays while the heap grows. -/
theorem Converts.mono (hold : ∀ r, r.index < h.size → g.get? r = h.get? r)
    (hv : h.Converts write? y v) : g.Converts write? y v := by
  have hget : ∀ {r o}, h.get? r = some o → g.get? r = some o := fun ho =>
    (hold _ (lt_of_get? ho)).trans ho
  induction hv with
  | null => exact .null
  | bool b => exact .bool b
  | number n => exact .number n
  | string text => exact .string text
  | sequence ho hlen _ ih => exact .sequence (hget ho) hlen ih
  | mapping ho hproto hkeys henum hlast hlen _ ih =>
    exact .mapping (hget ho) hproto hkeys henum hlast hlen ih
  | tagged tag _ ih => exact .tagged tag ih

/-! ## Loading -/

theorem addYamlItems_old (h : Heap) (items : List Yaml) : ∀ r, r.index < h.size →
    (h.addYamlItems write? items).1.get? r = h.get? r := by
  obtain ⟨place, -, -, ha⟩ := addEach_holds (addYamlBy write?) (Yaml.treeBy write?)
    (addYamlItems_holds write? items) h .root .index
  rw [← addYamlItems_eq] at ha
  exact ha.old

theorem addYamlEntries_old (h : Heap) (entries : List (Yaml × Yaml)) : ∀ r, r.index < h.size →
    (h.addYamlEntries write? entries).1.get? r = h.get? r := by
  obtain ⟨place, -, -, ha⟩ := addEach_holds
    (fun (h : Heap) (e : Yaml × Yaml) => h.addYamlBy write? e.2) (fun e => e.2.treeBy write?)
    (addYamlEntries_holds write? entries) h .root .index
  rw [addYamlEntries_eq]
  exact ha.old

theorem converts_sequence {items : List Yaml}
    (hall : List.Forall₂ ((h.addYamlItems write? items).1.Converts write?) items
      (h.addYamlItems write? items).2) :
    (h.addYamlBy write? (.sequence items)).1.Converts write? (.sequence items)
      (h.addYamlBy write? (.sequence items)).2 := by
  obtain ⟨hlen, hall⟩ := forall₂_iff_getElem?.1 hall
  refine .sequence (get?_alloc_next ..) hlen fun i y v hy hv => ?_
  exact (hall i y v hy hv).mono fun r hr => get?_alloc_of_lt hr

theorem converts_mapping
    (hkeys : (h.addYamlEntries write? entries).2.map Prod.fst =
      (Yaml.keyTexts write? entries).map Key.name)
    (hall : List.Forall₂ (fun e v => (h.addYamlEntries write? entries).1.Converts write? e.2 v)
      entries ((h.addYamlEntries write? entries).2.map Prod.snd)) :
    (h.addYamlBy write? (.mapping entries)).1.Converts write? (.mapping entries)
      (h.addYamlBy write? (.mapping entries)).2 := by
  obtain ⟨hlen, hall⟩ := forall₂_iff_getElem?.1 hall
  refine .mapping (get?_alloc_next ..) PlainObject.prototype_ofEntries ?_ ?_ (fun text => ?_) hlen
    fun i e v he hv => (hall i e v he hv).mono fun r hr => get?_alloc_of_lt hr
  · rw [PlainObject.keys_ofEntries, hkeys]
  · exact PlainObject.enumerable_insert_all _ (by simp [PlainObject.empty])
  · rw [PlainObject.get?_ofEntries_last]
    exact lastValue?_zip (fun _ _ => Key.name.inj) hkeys

theorem keys_addYamlEntries : ∀ (entries : List (Yaml × Yaml)) (h : Heap),
    (h.addYamlEntries write? entries).2.map Prod.fst =
      (Yaml.keyTexts write? entries).map Key.name
  | [], _ => rfl
  | (key, y) :: entries, h =>
    congrArg (Key.name (key.keyText write?) :: ·)
      (keys_addYamlEntries entries (h.addYamlBy write? y).1)

mutual

/-- **Loading a document** gives what it is converted to. -/
theorem addYamlBy_converts : ∀ (y : Yaml) (h : Heap),
    (h.addYamlBy write? y).1.Converts write? y (h.addYamlBy write? y).2
  | .null, _ => .null
  | .bool b, _ => .bool b
  | .number n, _ => .number n
  | .string text, _ => .string text
  | .sequence items, h => converts_sequence (addYamlItems_converts items h)
  | .mapping entries, h =>
    converts_mapping (keys_addYamlEntries entries h) (addYamlEntries_converts entries h)
  | .tagged tag y, h => .tagged tag (addYamlBy_converts y h)

theorem addYamlItems_converts : ∀ (items : List Yaml) (h : Heap),
    List.Forall₂ ((h.addYamlItems write? items).1.Converts write?) items
      (h.addYamlItems write? items).2
  | [], _ => .nil
  | y :: items, h =>
    .cons ((addYamlBy_converts y h).mono (addYamlItems_old _ items))
      (addYamlItems_converts items (h.addYamlBy write? y).1)

theorem addYamlEntries_converts : ∀ (entries : List (Yaml × Yaml)) (h : Heap),
    List.Forall₂ (fun e v => (h.addYamlEntries write? entries).1.Converts write? e.2 v) entries
      ((h.addYamlEntries write? entries).2.map Prod.snd)
  | [], _ => .nil
  | (_, y) :: entries, h =>
    .cons ((addYamlBy_converts y h).mono (addYamlEntries_old _ entries))
      (addYamlEntries_converts entries (h.addYamlBy write? y).1)

end

/-! ## A property for each entry -/

section
variable {p : PlainObject} {values : List Value}

theorem KeepsEntries.nodup (hk : h.KeepsEntries write? entries p) :
    (Yaml.keyTexts write? entries).Nodup := by
  have heq : p.keys = (Yaml.keyTexts write? entries).map Key.name := by
    rw [PlainObject.keys, Yaml.keyTexts, List.map_map, eq_comm, ← List.forall₂_eq_eq_eq,
      List.forall₂_map_left_iff, List.forall₂_map_right_iff]
    exact hk.imp fun e a hea => hea.1.symm
  have hnd : p.keys.Nodup := p.nodup
  rw [heq] at hnd
  exact hnd.of_map _

theorem keepsEntries_of_nodup
    (hkeys : p.keys = ((Yaml.keyTexts write? entries).map .name).eraseDups)
    (henum : ∀ a ∈ p.properties, a.enumerable = true)
    (hlast : ∀ text, p.get? (.name text) =
      lastValue? text ((Yaml.keyTexts write? entries).zip values))
    (hvalues : List.Forall₂ (fun e v => h.Converts write? e.2 v) entries values)
    (hnd : (Yaml.keyTexts write? entries).Nodup) : h.KeepsEntries write? entries p := by
  obtain ⟨hlen, hvalues⟩ := forall₂_iff_getElem?.1 hvalues
  have heq : p.properties.map Property.key = (Yaml.keyTexts write? entries).map Key.name :=
    hkeys.trans (eraseDups_of_nodup (hnd.map fun _ _ => Key.name.inj))
  have hlen' : entries.length = p.properties.length := by
    simpa [Yaml.keyTexts] using (congrArg List.length heq).symm
  refine forall₂_iff_getElem?.2 ⟨hlen', fun i e a he ha => ?_⟩
  obtain ⟨v, hv⟩ := exists_getElem? hlen.symm he
  have htext : (Yaml.keyTexts write? entries)[i]? = some (e.1.keyText write?) := by
    rw [Yaml.keyTexts, List.getElem?_map, he]
    rfl
  have hkey : a.key = .name (e.1.keyText write?) := by
    have hi := congrArg (·[i]?) heq
    simpa [htext, ha] using hi
  -- the entry is the last one with its text
  have hget : p.get? (.name (e.1.keyText write?)) = some v := by
    rw [hlast]
    refine lastValue?_of_nodup ?_ (List.mem_of_getElem? (List.getElem?_zip_eq_some.2 ⟨htext, hv⟩))
    rwa [List.map_fst_zip (by simp [Yaml.keyTexts, hlen])]
  have hmem : a ∈ p.properties := List.mem_of_getElem? ha
  have hvalue : a.value = v := by
    rw [← hkey, PlainObject.get?_eq_some.2 ⟨a, hmem, rfl, rfl⟩] at hget
    exact Option.some.inj hget
  exact ⟨hkey, henum a hmem, hvalue ▸ hvalues i e v he hv⟩

end

/-- **A property for each entry** is what the object of a mapping has if and
    only if no two of its keys have the same text. -/
theorem Converts.keepsEntries_iff (hv : h.Converts write? (.mapping entries) v) :
    ∃ r p, v = .object r ∧ h.get? r = some (.plain p) ∧
      (h.KeepsEntries write? entries p ↔ (Yaml.keyTexts write? entries).Nodup) := by
  cases hv with
  | mapping ho _ hkeys henum hlast hlen hvalues =>
    exact ⟨_, _, rfl, ho, KeepsEntries.nodup, keepsEntries_of_nodup hkeys henum hlast
      (forall₂_iff_getElem?.2 ⟨hlen, hvalues⟩)⟩

end Heap

/-! ## The same data -/

namespace Yaml

/-- Documents with the same data: they differ in tags, in the order of entries,
    in keys with the same text, and in entries that later ones replace. -/
inductive SameData (write? : Yaml → Option String) : Yaml → Yaml → Prop
  | null : SameData write? .null .null
  | bool (b : Bool) : SameData write? (.bool b) (.bool b)
  | number {m n : YamlNumber} :
      (m.value.eq n.value = true ∨ m.value.isNaN = true ∧ n.value.isNaN = true) →
      SameData write? (.number m) (.number n)
  | string (text : String) : SameData write? (.string text) (.string text)
  | sequence {as bs : List Yaml} : as.length = bs.length →
      (∀ (i : Nat) a b, as[i]? = some a → bs[i]? = some b → SameData write? a b) →
      SameData write? (.sequence as) (.sequence bs)
  | mapping {as bs : List (Yaml × Yaml)} :
      (∀ text, text ∈ keyTexts write? as ↔ text ∈ keyTexts write? bs) →
      (∀ text a b, lastValue? text (members write? as) = some a →
        lastValue? text (members write? bs) = some b → SameData write? a b) →
      SameData write? (.mapping as) (.mapping bs)
  | tagged_left (tag : String) {a b : Yaml} : SameData write? a b →
      SameData write? (.tagged tag a) b
  | tagged_right (tag : String) {a b : Yaml} : SameData write? a b →
      SameData write? a (.tagged tag b)

end Yaml

namespace Json

variable {key k : String} {i j : Json} {ms acc : List (String × Json)}

theorem mem_setMember_iff (hnd : (acc.map Prod.fst).Nodup) :
    (k, j) ∈ setMember key i acc ↔ k = key ∧ j = i ∨ k ≠ key ∧ (k, j) ∈ acc := by
  induction acc with
  | nil => simp [setMember]
  | cons m acc ih =>
    obtain ⟨hm, hnd⟩ := List.nodup_cons.1 hnd
    rw [setMember]
    split
    next heq =>
      subst heq
      have hne : (k, j) ∈ acc → k ≠ m.1 := by
        rintro hmem rfl
        exact hm (List.mem_map.2 ⟨_, hmem, rfl⟩)
      have hk : (k, j) = m → k = m.1 := fun h => congrArg Prod.fst h
      rw [List.mem_cons, List.mem_cons, Prod.mk.injEq]
      tauto
    next hne =>
      rw [List.mem_cons, ih hnd, List.mem_cons]
      have hk : (k, j) = m → k ≠ key := by
        rintro rfl
        exact hne
      tauto

theorem mem_foldl_setMember : ∀ {ms acc : List (String × Json)}, (acc.map Prod.fst).Nodup →
    ((k, j) ∈ ms.foldl (fun ms m => setMember m.1 m.2 ms) acc ↔
      lastValue? k ms = some j ∨ lastValue? k ms = none ∧ (k, j) ∈ acc)
  | [], acc, _ => by simp [lastValue?]
  | (key, i) :: ms, acc, hnd => by
    rw [List.foldl_cons, mem_foldl_setMember (nodup_setMember hnd), mem_setMember_iff hnd,
      lastValue?]
    cases lastValue? k ms with
    | some x => simp
    | none =>
      by_cases hk : key = k
      · simp [hk, eq_comm]
      · simp [hk, Ne.symm hk]

/-- The members that are left are those of the last values. -/
theorem mem_setMembers_iff : (k, j) ∈ setMembers ms ↔ lastValue? k ms = some j := by
  have hnd : (([] : List (String × Json)).map Prod.fst).Nodup := List.nodup_nil
  rw [setMembers, mem_foldl_setMember hnd]
  simp

theorem mem_keys_setMembers : k ∈ (setMembers ms).map Prod.fst ↔ k ∈ ms.map Prod.fst := by
  rw [List.mem_map, ← lastValue?_isSome_iff, Option.isSome_iff_exists]
  constructor
  · rintro ⟨⟨k, j⟩, hm, rfl⟩
    exact ⟨j, mem_setMembers_iff.1 hm⟩
  · rintro ⟨j, hj⟩
    exact ⟨(k, j), mem_setMembers_iff.2 hj, rfl⟩

end Json

namespace Yaml

variable {write? : Yaml → Option String} {as bs : List (Yaml × Yaml)} {a b : Yaml} {j : Json}
  {k : String}

theorem treeEntries_members (entries : List (Yaml × Yaml)) :
    treeEntries write? entries =
      (members write? entries).map fun m => (m.1, m.2.treeBy write?) := by
  rw [treeEntries_eq, members, List.map_map]
  rfl

theorem mem_tree_mapping : (k, j) ∈ Json.setMembers (treeEntries write? as) ↔
    ∃ y, lastValue? k (members write? as) = some y ∧ y.treeBy write? = j := by
  rw [Json.mem_setMembers_iff, treeEntries_members, lastValue?_map, Option.map_eq_some_iff]

theorem mem_keys_tree_mapping :
    k ∈ (Json.setMembers (treeEntries write? as)).map Prod.fst ↔ k ∈ keyTexts write? as := by
  rw [Json.mem_keys_setMembers, treeEntries_members, List.map_map, ← keys_members]
  rfl

/-- The same data have the same tree. -/
theorem SameData.same_tree (hs : a.SameData write? b) :
    (a.treeBy write?).Same (b.treeBy write?) := by
  induction hs with
  | null => exact .null
  | bool b => exact .bool b
  | number h => exact .number (by rwa [YamlNumber.value_toJson, YamlNumber.value_toJson])
  | string text => exact .string text
  | @sequence as bs hlen _ ih =>
    rw [treeBy, treeBy, treeItems_eq, treeItems_eq]
    refine .array (by simpa using hlen) fun i x y hx hy => ?_
    rw [List.getElem?_map] at hx hy
    obtain ⟨a, ha, rfl⟩ := Option.map_eq_some_iff.1 hx
    obtain ⟨b, hb, rfl⟩ := Option.map_eq_some_iff.1 hy
    exact ih i a b ha hb
  | @mapping as bs hkeys _ ih =>
    rw [treeBy, treeBy]
    refine .object (fun k => ?_) fun k x y hx hy => ?_
    · rw [mem_keys_tree_mapping, mem_keys_tree_mapping, hkeys]
    · obtain ⟨a, ha, rfl⟩ := mem_tree_mapping.1 hx
      obtain ⟨b, hb, rfl⟩ := mem_tree_mapping.1 hy
      exact ih k a b ha hb
  | tagged_left tag _ ih => rwa [treeBy]
  | tagged_right tag _ ih => rwa [treeBy]

/-- The document below its tags. -/
def untag : Yaml → Yaml
  | tagged _ y => untag y
  | y => y

theorem SameData.of_untag_left : ∀ {a : Yaml}, a.untag.SameData write? b → a.SameData write? b
  | .tagged tag _, hs => .tagged_left tag (of_untag_left hs)
  | .null, hs | .bool _, hs | .number _, hs | .string _, hs | .sequence _, hs | .mapping _, hs => hs

theorem SameData.of_untag_right : ∀ {b : Yaml}, a.SameData write? b.untag → a.SameData write? b
  | .tagged tag _, hs => .tagged_right tag (of_untag_right hs)
  | .null, hs | .bool _, hs | .number _, hs | .string _, hs | .sequence _, hs | .mapping _, hs => hs

/-- What a document is below its tags can be seen from its tree. -/
inductive HasTree (write? : Yaml → Option String) : Yaml → Json → Prop
  | null : HasTree write? .null .null
  | bool (b : Bool) : HasTree write? (.bool b) (.bool b)
  | number (n : YamlNumber) : HasTree write? (.number n) (.number n.toJson)
  | string (text : String) : HasTree write? (.string text) (.string text)
  | sequence (items : List Yaml) :
      HasTree write? (.sequence items) (.array (items.map (treeBy write?)))
  | mapping (entries : List (Yaml × Yaml)) :
      HasTree write? (.mapping entries) (.object (Json.setMembers (treeEntries write? entries)))

theorem hasTree_untag : ∀ y : Yaml, HasTree write? y.untag (y.treeBy write?)
  | .tagged _ y => hasTree_untag y
  | .null => .null
  | .bool b => .bool b
  | .number n => .number n
  | .string text => .string text
  | .sequence items => by
    rw [treeBy, treeItems_eq]
    exact .sequence items
  | .mapping entries => .mapping entries

/-- Documents with the same tree have the same data. -/
theorem SameData.of_same {x y : Json} (hs : x.Same y) :
    ∀ {a b : Yaml}, HasTree write? a x → HasTree write? b y → a.SameData write? b := by
  have hbelow : ∀ {a b : Yaml}, a.untag.SameData write? b.untag → a.SameData write? b := fun h =>
    .of_untag_left (.of_untag_right h)
  induction hs with
  | null =>
    rintro _ _ ⟨⟩ ⟨⟩
    exact .null
  | bool b =>
    rintro _ _ ⟨⟩ ⟨⟩
    exact .bool b
  | number h =>
    rintro _ _ ⟨⟩ ⟨⟩
    rw [YamlNumber.value_toJson, YamlNumber.value_toJson] at h
    exact .number h
  | string text =>
    rintro _ _ ⟨⟩ ⟨⟩
    exact .string text
  | array hlen _ ih =>
    rintro _ _ ⟨⟩ ⟨⟩
    next as bs =>
      refine .sequence (by simpa using hlen) fun i a b ha hb => hbelow ?_
      exact ih i (a.treeBy write?) (b.treeBy write?) (by rw [List.getElem?_map, ha]; rfl)
        (by rw [List.getElem?_map, hb]; rfl) (hasTree_untag a) (hasTree_untag b)
  | object hkeys _ ih =>
    rintro _ _ ⟨⟩ ⟨⟩
    next as bs =>
      refine .mapping (fun text => ?_) fun text a b ha hb => hbelow ?_
      · rw [← mem_keys_tree_mapping, ← mem_keys_tree_mapping, hkeys]
      · exact ih text (a.treeBy write?) (b.treeBy write?) (mem_tree_mapping.2 ⟨a, ha, rfl⟩)
          (mem_tree_mapping.2 ⟨b, hb, rfl⟩) (hasTree_untag a) (hasTree_untag b)

/-- **The same data** are what documents have whose trees are the same. -/
theorem same_tree_iff : (a.treeBy write?).Same (b.treeBy write?) ↔ a.SameData write? b :=
  ⟨fun hs => .of_untag_left (.of_untag_right (.of_same hs (hasTree_untag a) (hasTree_untag b))),
    SameData.same_tree⟩

end Yaml

/-! ## What loading keeps -/

namespace Heap

/-- Two documents in one heap are equal if and only if they have the same
    data. -/
theorem deepEqual_addYamlBy_iff (write? : Yaml → Option String) (h : Heap) (a b : Yaml) :
    ((h.addYamlBy write? a).1.addYamlBy write? b).1.deepEqual (h.addYamlBy write? a).2
      ((h.addYamlBy write? a).1.addYamlBy write? b).2 = true ↔ a.SameData write? b := by
  obtain ⟨place, hv, hadd⟩ := addYamlBy_holds write? a h .root
  obtain ⟨place', hw, hadd'⟩ := addYamlBy_holds write? b (h.addYamlBy write? a).1 .root
  have hv' : ((h.addYamlBy write? a).1.addYamlBy write? b).1.Holds place .root
      (h.addYamlBy write? a).2 (a.treeBy write?) :=
    hv.mono fun r path hr => ⟨hr, hadd'.old r (hadd.new r path hr).2⟩
  rw [deepEqual_iff_same hv' hw (hadd.apart hadd'), Yaml.same_tree_iff]

/-- **Loading keeps the last entry** under each text of a key, at every mapping
    that it comes to.  So the object of a mapping has a property for each entry
    if and only if no two keys have the same text, and documents become equal
    if and only if they have the same data.  All of this holds for any way of
    writing a collection that is a key. -/
theorem addYamlBy_last_entries (write? : Yaml → Option String) (h : Heap) (a b : Yaml) :
    (h.addYamlBy write? a).1.Converts write? a (h.addYamlBy write? a).2 ∧
      (∀ entries v, (h.addYamlBy write? a).1.Converts write? (.mapping entries) v →
        ∃ r p, v = .object r ∧ (h.addYamlBy write? a).1.get? r = some (.plain p) ∧
          ((h.addYamlBy write? a).1.KeepsEntries write? entries p ↔
            (Yaml.keyTexts write? entries).Nodup)) ∧
      (((h.addYamlBy write? a).1.addYamlBy write? b).1.deepEqual (h.addYamlBy write? a).2
        ((h.addYamlBy write? a).1.addYamlBy write? b).2 = true ↔ a.SameData write? b) :=
  ⟨addYamlBy_converts a h, fun _ _ hv => hv.keepsEntries_iff, deepEqual_addYamlBy_iff write? h a b⟩

/-- A mapping with a number and the text of that number as keys. -/
def numberAndText : List (Yaml × Yaml) :=
  [(.number (.integer 1), .string "a"), (.string "1", .string "b")]

theorem numberText_one : Yaml.numberText (.integer 1) = "1" := by decide

theorem keyTexts_numberAndText : Yaml.keyTexts write? numberAndText = ["1", "1"] := by
  show [Yaml.numberText (.integer 1), "1"] = _
  rw [numberText_one]

theorem sameData_numberAndText : (Yaml.mapping numberAndText).SameData write?
    (.mapping [(.string "1", .string "b")]) := by
  have hmembers : Yaml.members write? numberAndText =
      [("1", .string "a"), ("1", .string "b")] := by
    show [(Yaml.numberText (.integer 1), Yaml.string "a"), ("1", .string "b")] = _
    rw [numberText_one]
  refine .mapping (fun text => ?_) fun text a b ha hb => ?_
  · rw [keyTexts_numberAndText]
    simp [Yaml.keyTexts, Yaml.keyText]
  · obtain rfl : text = "1" := by
      by_contra hne
      simp [Yaml.members, Yaml.keyText, lastValue?, Ne.symm hne] at hb
    rw [hmembers] at ha
    cases ha
    cases hb
    exact .string "b"

/-- The object of a mapping may lack entries, and mappings with different
    entries may become equal. -/
theorem addYaml_not_entrywise :
    (¬∀ (h : Heap) (entries : List (Yaml × Yaml)), ∃ r p,
      (h.addYaml (.mapping entries)).2 = .object r ∧
        (h.addYaml (.mapping entries)).1.get? r = some (.plain p) ∧
        (h.addYaml (.mapping entries)).1.KeepsEntries Yaml.blockText? entries p) ∧
      ((empty.addYaml (.mapping numberAndText)).1.addYaml
        (.mapping [(.string "1", .string "b")])).1.deepEqual
          (empty.addYaml (.mapping numberAndText)).2
          ((empty.addYaml (.mapping numberAndText)).1.addYaml
            (.mapping [(.string "1", .string "b")])).2 = true := by
  refine ⟨fun hall => ?_, (deepEqual_addYamlBy_iff ..).2 sameData_numberAndText⟩
  obtain ⟨r, p, hr, ho, hkeeps⟩ := hall empty numberAndText
  have hv : (empty.addYaml (.mapping numberAndText)).1.Converts Yaml.blockText?
      (.mapping numberAndText) (empty.addYaml (.mapping numberAndText)).2 :=
    addYamlBy_converts _ empty
  obtain ⟨r', p', hr', ho', hiff⟩ := hv.keepsEntries_iff
  rw [hr] at hr'
  cases hr'
  rw [ho] at ho'
  cases ho'
  rw [keyTexts_numberAndText] at hiff
  simpa using hiff.1 hkeeps

end Heap

end ValueGraph
