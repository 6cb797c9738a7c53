import Offside.Text.CodeRange

/-!
# Signs beyond ASCII

The ranges of code points that Unicode 16 calls mathematical or other
symbols.  Operators may be spelled with any of them.
-/

namespace Offside.Text

/-- Mathematical and other symbols (general categories `Sm`, `So`). -/
def signRanges : List (Nat × Nat) :=
  spaced <|
  [(166, 0), (3, 0), (3, 0), (2, 0), (2, 1), (38, 0), (32, 0), (767, 0), (140, 0), (267, 1),
   (120, 2), (6, 1), (207, 0), (11, 0), (20, 1), (248, 0), (516, 0), (374, 0), (131, 5), (2, 0),
   (133, 0), (208, 0), (42, 0), (392, 2), (16, 0), (2, 2), (3, 5), (21, 0), (2, 0), (2, 0),
   (134, 7), (2, 5), (2, 1), (6, 3), (198, 1), (753, 9), (724, 0), (723, 0), (158, 33), (354, 9),
   (10, 8), (1224, 0), (14, 0), (40, 2), (14, 2), (116, 1), (2, 3), (2, 1), (11, 0), (2, 2), (6, 5),
   (2, 0), (2, 0), (2, 0), (5, 0), (12, 1), (5, 4), (6, 3), (2, 0), (59, 1), (5, 375), (5, 28),
   (3, 254), (23, 10), (82, 77), (23, 615), (45, 48), (3, 30), (11, 402), (23, 62), (5, 31),
   (3, 373), (3, 31), (2, 104), (230, 5), (358, 1), (47, 25), (2, 88), (13, 213), (27, 15), (5, 0),
   (14, 1), (13, 0), (22, 1), (7, 1), (337, 1), (5, 9), (33, 37), (10, 0), (17, 30), (12, 29),
   (9, 0), (16, 31), (11, 38), (16, 319), (6593, 63), (22161, 54), (866, 3), (11, 1), (2, 0),
   (574, 2), (20656, 0), (535, 15), (128, 0), (46, 2), (99, 0), (2, 2), (165, 0), (17, 2), (62, 0),
   (2, 0), (132, 0), (2, 0), (4, 6), (14, 1), (314, 8), (58, 16), (3, 2), (2, 12), (4, 0), (48, 44),
   (1659, 1), (592, 0), (710, 1), (2480, 0), (2198, 7), (5, 16), (19275, 3), (6, 0), (20823, 0),
   (3940, 239), (17, 435), (157, 115), (61, 245), (11, 38), (3, 59), (6, 2), (23, 1), (8, 29),
   (5, 60), (22, 65), (4, 0), (187, 86), (875, 0), (26, 0), (32, 0), (26, 0), (32, 0), (26, 0),
   (32, 0), (26, 0), (32, 0), (26, 0), (61, 511), (56, 3), (51, 7), (2, 13), (2, 1), (1737, 0),
   (2909, 0), (130, 0), (450, 1), (271, 43), (5, 99), (13, 14), (3, 14), (2, 14), (2, 36),
   (24, 160), (57, 28), (14, 43), (5, 8), (8, 1), (15, 5), (155, 250), (6, 727), (5, 16), (4, 12),
   (4, 118), (5, 94), (7, 11), (5, 0), (16, 11), (5, 55), (9, 9), (7, 39), (9, 29), (3, 11), (5, 1),
   (63, 339), (13, 13), (3, 12), (4, 9), (6, 55), (8, 14), (3, 10), (7, 8), (8, 146), (2, 91)]

end Offside.Text
