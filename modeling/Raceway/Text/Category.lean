/-!
# General categories

Every code point has one of thirty general categories. The categories are those of version 16 of the
Unicode standard, stored as runs: a letter for the category and the number of code points that have
it one after the other, which is left out where it is one.

## Main definitions

* `Raceway.Text.Category`: the categories.
* `Raceway.Text.category`: the category of a character.
-/

namespace Raceway.Text

/-- The general category of a code point. -/
inductive Category where
  | uppercaseLetter
  | lowercaseLetter
  | titlecaseLetter
  | modifierLetter
  | otherLetter
  | nonspacingMark
  | spacingMark
  | enclosingMark
  | decimalNumber
  | letterNumber
  | otherNumber
  | connectorPunctuation
  | dashPunctuation
  | openPunctuation
  | closePunctuation
  | initialPunctuation
  | finalPunctuation
  | otherPunctuation
  | mathSymbol
  | currencySymbol
  | modifierSymbol
  | otherSymbol
  | spaceSeparator
  | lineSeparator
  | paragraphSeparator
  | control
  | format
  | surrogate
  | privateUse
  | unassigned
deriving DecidableEq, Repr

namespace Category

/-- The categories in the order of their letters in the runs: capital letters, then small ones. -/
def all : List Category :=
  [uppercaseLetter, lowercaseLetter, titlecaseLetter, modifierLetter, otherLetter, nonspacingMark,
    spacingMark, enclosingMark, decimalNumber, letterNumber, otherNumber, connectorPunctuation,
    dashPunctuation, openPunctuation, closePunctuation, initialPunctuation, finalPunctuation,
    otherPunctuation, mathSymbol, currencySymbol, modifierSymbol, otherSymbol, spaceSeparator,
    lineSeparator, paragraphSeparator, control, format, surrogate, privateUse, unassigned]

/-- The position of a category in the order of their letters. -/
def ofPosition (n : Nat) : Category :=
  all.getD n unassigned

end Category

/-! ### The runs -/

/-- The runs of code points of one category, from the first code point to the last. -/
def categoryRuns : List String :=
  ["Z32WR3TR3NORSRMR2I10R2S3R2A26NROULUB26NSOSZ33WRT4VRUVEPSaVUVSK2UBR2UKEQK3RA23SA7B24SB8ABABAB",
    "ABABABABABABABABABABABABABABABABABABABABABABABABAB2ABABABABABABABAB2ABABABABABABABABABABABAB",
    "ABABABABABABABABABABABA2BABAB3A2BABA2BA3B2A4BA2BA3B3A2BA2BABABA2BAB2ABA2BA3BABA2B2EAB3E4ACBA",
    "CBACBABABABABABABABAB2ABABABABABABABABAB2ACBABA3BABABABABABABABABABABABABABABABABABABABABABA",
    "BABABABABABABAB7A2BA2B2ABA4BABABABAB69E2B26D18U4D12U14D5U7DUDU17F112ABABDUABd2DB3RAd4U2ARA3d",
    "AdA2BA17dA9B35AB2A3B3ABABABABABABABABABABABAB5ABSABA2B2A51B48ABABABABABABABABABABABABABABABA",
    "BABVF5H2ABABABABABABABABABABABABABABABABABABABABABABABABABABABA2BABABABABABAB2ABABABABABABAB",
    "ABABABABABABABABABABABABABABABABABABABABABABABABABABABABABABABABABABABABABABABABABdA38d2DR6",
    "B41RMd2V2TdF45MFRF2RF2RFd8E27d4E4R2d11a6S3R2TR2V2F11RaR3E32DE10F21I10R4E2FE99REF7aVF6D2F2VF4",
    "E2I10E3V2ER14daEFE30F27d2E89F11Ed14I10E33F9D2VR3Dd2FT2E22F4DF9DF3DF5d2R15dE25F3d2RdE11d5E24U",
    "E6da2d5F9E41DF24aF32GE54FGFEG3F8G4FG2EF7E10F2R2I10RDE15FG2dE8d2E2d2E22dE7dEd3E4d2FEG3F4d2G2",
    "d2G2FEd8Gd4E2dE3F2d2I10E2T2K6VTERFd2F2GdE6d4E2d2E22dE7dE2dE2dE2d2FdG3F2d4F2d2F3d3Fd7E4dEd7",
    "I10F2E3FRd10F2GdE9dE3dE22dE7dE2dE5d2FEG3F5dF2GdG2Fd2Ed15E2F2d2I10RTd7EF6dFG2dE8d2E2d2E22dE7d",
    "E2dE5d2FEGFGF4d2G2d2G2Fd7F2Gd4E2dE3F2d2I10VEK6d10FEdE6d3E3dE4d3E2dEdE2d3E2d3E3d3E12d4G2FG2d3",
    "G3dG3Fd2Ed6Gd14I10K3V6TVd5FG3FE8dE3dE23dE16d2FEF3G4dF3dF4d7F2dE3d2Ed2E2F2d2I10d7RK7VEFG2RE8d",
    "E3dE23dE10dE5d2FEGFG5dFG2dG2F2d7G2d6E2dE2F2d2I10dE2Gd12F2G2E9dE3dE41F2EG3F4dG3dG3FEVd4E3GK7",
    "E3F2d2I10K9VE6dFG2dE18d3E24dE9dEd2E7d3Fd4G3F3dFdG8d6I10d2G2Rd12E48FE2F7d4TE6DF8RI10R2d37E2dE",
    "dE5dE24dEdE10FE2F9Ed2E5dDdF7dI10d2E4d32EV3R15VRV3F2V6I10K10VFVFVFNONOG2E8dE36d4F14GF5RF2E5",
    "F11dF36dV8FV6dV2R5V4R2d37E43G2F4GF6GF2G2F2EI10R6E6G2F2E4F3EG3E2G7E3F4E13FG2F2G6FEGI10G3FV2",
    "A38dAd5Ad2B43RDB3E329dE4d2E7dEdE4d2E41dE4d2E33dE4d2E7dEdE4d2E15dE57dE4d2E67d2F3R9K20d3E16V10",
    "d6A86d2B6d2ME620VRE17WE26NOd3E75R3J3E8d7E18F3Gd9E19F2GR2d9E18F2d12E13dE3dF2d12E52F2GF7G8FG2",
    "F11R3DR3TEFd2I10d6K10d6R6MR4F3aFI10d6E35DE53d7E5F2E34FEd5E70d10E31dF3G4F2G3d4G2FG6F3d4Vd3R2",
    "I10E30d2E5d11E44d4E26d6I10Kd3V34E23F2G2Fd2R2E53GFGF7dFGFG2F8G6F10d2FI10d6I10d6R7DR6d2F14HF16",
    "d49F4GE47FGF5GFG5FG2E8dR2I10R7V10F9V9R3F2GE30GF4G2F2GF3E2I10E44FGF2G3FGF3G2d8R4E36G8F8G2F2d3",
    "R5I10d3E3I10E30D6R2B9ABd5A43d2A3R8d8F3RF13GF7E4FE6FE2GF2Ed5B44D63B13DB34D37F64ABABABABABABAB",
    "ABABABABABABABABABABABABABABABABABABABABABABABABABABABABABABABABABABABABABABABABABABABABABAB",
    "ABABABABABABABABABABABABABABABABABABABABABAB9ABABABABABABABABABABABABABABABABABABABABABABABA",
    "BABABABABABABABABABABABABABABABABABABABABABABABABAB9A8B6d2A6d2B8A8B8A8B6d2A6d2B8dAdAdAdAB8A8",
    "B14d2B8C8B8C8B8C8B5dB2A4CUBU3B3dB2A4CU3B4d2B2A4dU3B8A5U3d2B3dB2A4CU2dW11a5M6R2PQNP2QNPR8XYa5",
    "WR9PQR4L2R3SNOR11SRLR10Wa5da10KDd2K6S3NODK10S3NOdD13d3T33d15F13H4FH3F12d15V2AV4AV2BA3B2A3BVA",
    "V2SA5V6AVAVAVA4VBA4BE4BV2B2A2S5AB4VSV2BVK16J35ABJ4KV2d4S5V5S2V4SV2SV2SV7SV31S2V2SVSV31S268V8",
    "NONOV20S2V7NOV81SV30S25V40S6V72d22V11d21K60V78K22V183SV9SV54S8V111SV248NONONONONONONOK30V44",
    "S5NOS31NONONONONOS16V256S131NONONONONONONONONONONOS63NONOS32NOS258V48S21V2S6V39d2V32dV105A48",
    "B48ABA3B2ABABABA4BAB2AB6D2A3BABABABABABABABABABABABABABABABABABABABABABABABABABABABABABABABA",
    "BABABABABABABABABABABABABABABABABAB2V6ABABF3ABd5R4KR2B38dBd5Bd2E56d7DRd14FE23d9E7dE7dE7dE7d",
    "E7dE7dE7dE7dF32R2PQPQR3PQRPQR9MR2MRPQR2PQNONONONOR5DR10M2R4MRNR13V2R3NONONONOMd34V26dV89d12",
    "V214d26V16WR3VDEJNONONONONOV2NONONONOMNO2VJ9F4G2MD5V2J3DERV2dE86d2F2U2D2EME90RD3Ed5E43dE94d",
    "V2K4V10E32V38d9VE16V31dK10V30K8VK15V32K10V39K15V320E6592V64E21013DE1143d3V55d9E40D6R2E268DR3",
    "E16I10E2d20ABABABABABABABABABABABABABABABABABABABABABABABEFH3RF10RDABABABABABABABABABABABABA",
    "BABD2F2E70J10F2R6d8U23D9U2ABABABABABABAB3ABABABABABABABABABABABABABABABABABABABABABABABABABA",
    "BABABABABABDB8ABABA2BABABABABDU2ABABEABAB3ABABABABABABABABABABA5BA5BABABABABABABABA4BABA2Bd2",
    "ABdBdBABABABAd21D3ABED2BE7FE3FE4FE23G2F2GV4Fd3K6V2TVd6E52R4d8G2E50G16F2d8R2I10d6F18E6R3ERE2F",
    "I10E28F8R2E23F11G2d11RE29d3F3GE47FG2F4G2F2G3R13dDI10d4R2E5FDE9I10E5dE41F6G2F2G2F2d9E3FE8FGd2",
    "I10d2R4E16DE6V3EGFGE50FEF3E2F2E5F2EFEd24E2DR2E11GF2G2R2ED2GFd10E6d2E6d2E6d9E7dE7dB43UD4B9DU2",
    "d4B80E35G2FG2FG2RGFd2I10d6E11172d12E23d4E49d4b2048c6400E366d2E106d38B7d12B5d5EFE10SE13dE5dEd",
    "E2dE2dE108U17d16E363ONV16E64d2E54d7Vd32E12TV3F16R7NORd6F16RM2L2NONONONONONONONOR2NOR4L3R3dR4",
    "MNONONOR3SMS3dRTR2d4E5dE135d2adR3TR3NORSRMR2I10R2S3R2A26NROULUB26NSOSNORNOR2E10DE45D2E31d3E6",
    "d2E6d2E6d2E3d3T2SUVT2dVS4V2d10a3V2d2E12dE26dE19dE2dE15d2E14d34E123d5R3d4K45d3V9J53K4V17K2V3d",
    "V13d3Vd47V45Fd130E29d3E49d15FK27d4E32K4d9E20JE8Jd5E38F5d5E30dRE36d4E8RJ5d42A40B40E78d2I10d6",
    "A36d4B36d4E40d8E52d11RA11dA15dA7dA2dB11dB15dB7dB2d3E52d12E311d9E22d10E8d24D6dD42dD9d69E6d2Ed",
    "E44dE2d3Ed2E23dRK8E23V2K7E31d8K9d48E19dE2d5K5E22K6d3RE26d5Rd64E56d4K2E2K16d2K46EF3dF2d5F4E4d",
    "E3dE29d2F3d4FK9d7R9d7E29K2RE29K3d32E8VE28F2d4K5R7d9E54d3R7E22d2K8E19d5K8E18d7R4d12K7d80E73",
    "d55A51d13B51d7K6E36F4d8I10d6I10E4DEA22d3F5MDB22d8S2d208K31dE42dF2Md2E2d16E3d55F4E29K10Ed8E22",
    "F11K4R5d22E18F4R4d38E21K7d20E23d9GFGE53F15R7d4K20I10FE2F2Ed9F3GE45G3F4G2F2R2aR4Fd10ad2E25d7",
    "I10d6F3E36F5GF8dI10R4EG2Ed8E35FR2Ed9F2GE48G3F9G2E4R4F4RGFI10ERER3dK20d11E18dE25G3F3G2FGF2R6F",
    "E2Fd62E7dEdE4dE15dE10Rd6E47FG3F8d5I10d6F2G2dE8d2E2d2E22dE7dE2dE5dF2EG2FG4d2G2d2G3d2Ed6Gd5E5",
    "G2d2F7d3F5d11E10dEd2EdE38dEG3F6dGd2GdG4dG2FGFEFER2dR2d8F2d29E53G3F8G2F3GFE4R5I10R2dRFE3d30",
    "E48G3F6GFG4F2GF2E2REd8I10d166E47G3F4d2G4F2GF2R23E4F2d34E48G3F8G2FGF2R3Ed11I10d6R13d19E43FGF",
    "G2F6GFERd6I10d6I20d28E27d2FGFG2F4GF5d4I10K2R3VE7d185E44G3F9GF2Rd100A32B32I10K9d12E8d2Ed2E8d",
    "E2dE24G6dG2d2F2GFEGEGFR3d9I10d70E8d2E39G3F4d2F2G4FEREGd27EF10E40F6GEF4R8Fd8EF6G2F3E46F13GF2",
    "R3ER5d13E73d7R10d182E33Rd14I10d6E9dE37GF7dF6GFER5d10I10K19d3R2E30d2F22dGF7GF2GF2d73E7dE2dE38",
    "F6d3FdF2dF7EFd8I10d6E6dE2dE32G5dF2dG2FGFEd7I10d310E19F2G2R2d7F2EGE13dE34G2F5d3G2FGFR13I10F",
    "d85Ed15K21V8T4V17d13RE922d102J111dR5d11E196d2636E97R2d13E1072a16FE6F15d10E3995d5E583d6841E30",
    "F12G3F3I10d1734E569d7E31dI10d4R2E79dI10d6E30d2F5Rd10E48F7R5V4D4RVd10I10dK7dE21d5E19d432D3E40",
    "D2R3I10d198A32B32K23R4d101E75d4FEG55d7F4D13d64D2RDFd11G2d14E6136d8E1238d41E10d8935D4dD7dD2d",
    "E291d15Ed29E3d2Ed14E4d8E396d2308E107d5E13d3E9d7E10d2VF2Ra4d3932V240I10d6V436d76F46d2F23d9",
    "V116d60V246d10V39d2V60G2F3V3G6a8F8V2F7V30F4V61d21V66F3Vd122K20d12K20d12V87d9K25d135A26B26A26",
    "B7dB18A26B26AdA2d2Ad2A2d2A4dA8B4dBdB7dB11A26B26A2dA4d2A8dA7dB26A2dA4dA5dAd3A7dB26A26B26A26",
    "B26A26B26A26B26A26B26A26B28d2A25SB25SB6A25SB25SB6A25SB25SB6A25SB25SB6A25SB25SB6ABd2I50V512",
    "F55V4F50V8FV14FV2R5d15F5dF15d1104B10EB20d6B6d213F7dF17d2F7dF2dF5d5D62d33Fd112E45d3F7D7d2I10",
    "d4EVd320E30Fd17E44F4I10d5Td464E27DF4I10d214E30F2EI10d4Rd480E7dE4dE2dE15dE197d2K9F7d41A34B34",
    "F7Dd4I10d4R2d785K59VK3TK4d76K45VK15d194E4dE27dE2dEd2EdE10dE4dEdEd6Ed4EdEdEdE3dE2dEd2EdEdEdEd",
    "EdE2dEd2E4dE7dE4dE4dEdE10dE17d5E3dE5dE17d52S2d270V44d4V100d12V15d2V15dV15dV37d10K13V161d56",
    "V29d13V44d4V9d7V2d14V6d154V251U5V728d4V17d3V13d3V119d4V95d6V12d4Vd15V12d4V56d8V10d6V40d8V30",
    "d2V12d4V2d62V340d12V14d2V13d3V10d5V56d7V15d2V11d6V9d7V147dV92I10d1030E42720d32E4154d6E222d2",
    "E5762d14E7473d15E622d2466E542d1506E4939d5E4192d711761ad30a96d128F240d65040c65534d2c65534d2"]

/-- The position of a category with the given letter. -/
def letterPosition (c : Char) : Nat :=
  if c.toNat < 'a'.toNat then c.toNat - 'A'.toNat else c.toNat - 'a'.toNat + 26

/-- Decode a character behind the runs decoded so far, which come last first: a letter starts a run,
and a digit belongs to the length of the last one. -/
def decodeRun (runs : List (Nat × Nat)) (c : Char) : List (Nat × Nat) :=
  if c.isDigit then
    match runs with
    | (position, length) :: before =>
      (position, 10 * length + (c.toNat - '0'.toNat)) :: before
    | [] => []
  else (letterPosition c, 0) :: runs

/-- The positions of the categories of the runs with their lengths, where a length of zero is one
that is left out. -/
def decodedRuns : List (Nat × Nat) :=
  (categoryRuns.foldl (fun runs line => line.toList.foldl decodeRun runs) []).reverse

/-- The starts of runs with their categories, from a code point on. -/
def runStarts : Nat → List (Nat × Nat) → List (Nat × Category)
  | _, [] => []
  | start, (position, length) :: runs =>
    (start, Category.ofPosition position) :: runStarts (start + max length 1) runs

/-- The starts of the runs with their categories, ascending. -/
def categoryTable : Array (Nat × Category) :=
  (runStarts 0 decodedRuns).toArray

/-- The last position of a table whose start is at most the given number, found by halving. -/
def lastStart (table : Array (Nat × Category)) (n : Nat) : Nat :=
  [4096, 2048, 1024, 512, 256, 128, 64, 32, 16, 8, 4, 2, 1].foldl (fun i step =>
    if (table[i + step]?).any (·.1 ≤ n) then i + step else i) 0

/-- The category that a table gives for a code point. -/
def categoryIn (table : Array (Nat × Category)) (n : Nat) : Category :=
  match table[lastStart table n]? with
  | some (_, category) => category
  | none => .unassigned

/-- The general category of a character. -/
def category (c : Char) : Category :=
  categoryIn categoryTable c.toNat

end Raceway.Text
