import FieldSponge.UInt256.Basic

/-! The table of round constants of the Starknet permutation, a row of three for each of its 91
rounds. The least significant word of a constant comes first. -/
namespace FieldSponge
namespace Hades
namespace Starknet

/-- The canonical values for every round in turn. -/
def canonicalConstants : List (Vector UInt256 3) := [
  #v[⟨0x80b7fd8eac77fe6f, 0xe58e2ad98109ae47, 0x39dd92f9562a30b9, 0x06861759ea556a23⟩,
    ⟨0xe4ab1a22f27508c4, 0x3da43f76abf28a64, 0xffc8397a3d00425a, 0x03827681995d5af9⟩,
    ⟨0x7a0dbe17704a8309, 0x2cac75dc279b2d68, 0xe7f760a2277dc7cb, 0x03a3956d2fad44d0⟩],
  #v[⟨0x882031afe67ef4cd, 0x291c78f926a2d1c6, 0xf13c4282214aa759, 0x0626c47a7d421fe1⟩,
    ⟨0xadfe17baca05d6a6, 0x2d327fcc948d772c, 0x5bd6df5518cfd41f, 0x078985f8e1650503⟩,
    ⟨0x142dcf34341696ff, 0xc6e26a68b456dc1d, 0x204c659875341243, 0x05427f10867514a3⟩],
  #v[⟨0x0465e60edce699d7, 0x847cd2c5d9d4cb8b, 0x454361733f0883c5, 0x05af083f36e4c729⟩,
    ⟨0xc77e709bfd388882, 0x2d3975f92ff84b1a, 0x54fa3f74f7b352a5, 0x07d71701bde3d06d⟩,
    ⟨0xe39584467a6b1d3e, 0xac1b64f699ffea44, 0x9c26f8a6320a1c5e, 0x0603da0688201900⟩],
  #v[⟨0x613b9721f6453a5d, 0xeebd8870fd13a36b, 0x8e79ce13f47ad1cd, 0x04332a6f6bde2f28⟩,
    ⟨0xc9e8caeb5cba78e7, 0x4b9a813aaeff60d6, 0x5310a04c4dec2e7e, 0x053d0ebf61664c68⟩,
    ⟨0x1bfc2d15eaabfebc, 0x6c82f99f928494ee, 0x5ae5ebcb88028d2a, 0x05346a6889484583⟩],
  #v[⟨0x98147e69dd91e5a3, 0x8694ab61f2387970, 0xa7631ccaecb7a4ab, 0x0550a9e24176509e⟩,
    ⟨0x2b5794daa2687000, 0x0f48ad3ed77c8b26, 0xaa62773fedd3570e, 0x0219dcccb783b1cb⟩,
    ⟨0x92864c00f54a3f9a, 0x3433b6ab9dd5a995, 0x3453cc97445954bf, 0x04b085eb1df4258c⟩],
  #v[⟨0xe2da084e5aabb78d, 0x5a465939d04b6c72, 0x3af2bf3c03e420ea, 0x053e8a8e8a404c50⟩,
    ⟨0xf4f9ada962be8ca8, 0xfb4049cb137faf5d, 0x1bd14d2537fe5c19, 0x05ca045c1312c09d⟩,
    ⟨0x9939c46c162517f4, 0x6820b1ed97596a96, 0x44997e959f27a5b0, 0x07c74922a456802c⟩],
  #v[⟨0x5dc6f519bb7ab83f, 0xf2526a20f9167043, 0x6bf5088614b9684f, 0x00c0bba6880d2e68⟩,
    ⟨0x843849cd0f87934a, 0xc1a6203741decd72, 0xd708dd07234c1b2d, 0x04526bcaec43e8eb⟩,
    ⟨0xbfe1ec7f01d613ed, 0xbef44d92edc6d5b0, 0xd81efaea5a75a434, 0x01cc9a17b00d3607⟩],
  #v[⟨0x0bc7b4a4fde8f01f, 0xe1eb7284e2b28ed9, 0x12aa8cdbead0bc1c, 0x0028b1e269b84c40⟩,
    ⟨0xbb724dc7a994498d, 0x0c19656bcb945b58, 0x1d9a2482fbdaf659, 0x062af2f41d76c4ad⟩,
    ⟨0x59e285eee627df1a, 0x2269bed2dc0d4dbf, 0xb2618213b0d1bf4a, 0x05cfd7e44946daa6⟩],
  #v[⟨0xc31955dc8386a747, 0xcf0312ab9f16ac9b, 0x56fdd1b94da8d3bb, 0x07ff2afb40f33008⟩,
    ⟨0x9b3248ee326e929c, 0xab40efae6fa9cd91, 0x83e90bab8ae37f8a, 0x05cd236bdc15b541⟩,
    ⟨0x741a90bbd53a698a, 0x2bd999084e30688e, 0x60c946418bf0e582, 0x005463841390e22d⟩],
  #v[⟨0x8226e7406144f805, 0x7efd44a4e51890ae, 0xb2021f13eb4d7174, 0x024c940fff3fe8c8⟩,
    ⟨0x7fc77d45e1b04555, 0x153ca4c02172dd1d, 0x8dc88f05393d9d03, 0x04e50cb07b387326⟩,
    ⟨0xd0b32e1189b6dcb5, 0x1d9b499c35f375d7, 0x7b430e53238d2bab, 0x062ca053e4da0fc8⟩],
  #v[⟨0x951bff3d3d7e1191, 0x19cd89100adff965, 0xaaf37fe0b851bc24, 0x0719f20ac59d1ebc⟩,
    ⟨0x98935cf47d55a8fd, 0x4050ac92ca52f5c7, 0x6a82fe5bb90807f4, 0x07645ca5e87a9f91⟩,
    ⟨0x015391ca63663767, 0x23d4b71d17133438, 0x200eed38d248ecda, 0x015b8aeaca96ab53⟩],
  #v[⟨0x96c1b658bf10b2e2, 0xb98799e908f928c1, 0xaa8252f106292ac3, 0x0053d94dbbca7cb2⟩,
    ⟨0x3913831c34de2d1e, 0x942b447c615c0f03, 0xc6f4c0a3b70edbb3, 0x028f90b403e240f1⟩,
    ⟨0xb70ae6e770e22081, 0x9699dd2feb36e3e5, 0xe1161c4d0bf02515, 0x02485167dc233ba6⟩],
  #v[⟨0xe938607a5feca6e8, 0x88f7fdaacdd58698, 0xff7de548541dd269, 0x01c8b08a90d6ee46⟩,
    ⟨0xce05b16901c4881e, 0x0c7c4df5ecdad643, 0x66b75e79d146f988, 0x0105c3bf5cba2564⟩,
    ⟨0x965418b02dbc6bd7, 0xd5015b85dfbd77b2, 0x627a65a21bef2106, 0x0238019787f4cc0b⟩],
  #v[⟨0x3a6ebc99a6ddc5e1, 0x5c15b52dec817292, 0xb73dce29a5f24c46, 0x015e624d7698fdf9⟩,
    ⟨0x79f612fde5800a0a, 0xca0c2efef23b04a4, 0xf56bc056ad8bf740, 0x05d3688ba56f34fd⟩,
    ⟨0x811c69ae363b444d, 0x2e26d872d98b3cce, 0x9e67ed336e82dc6c, 0x0229abdef3fef7ae⟩],
  #v[⟨0xac58daf2d3fc44db, 0xb2c43d1e33c92b57, 0xee400801a56f236d, 0x03e8096ecfcbcde2⟩,
    ⟨0x02265352c57db9bd, 0xe6a7cd4e1b47bf6a, 0x108d605aae834c7c, 0x03ad5fec670d7039⟩,
    ⟨0xadca32046aeaef0a, 0x4ef597fff1f98557, 0x75877afdbb4df679, 0x07cf4598c0cf1438⟩],
  #v[⟨0xca0ec7a123c00ad6, 0x4170c37841fef49a, 0x4a4d1c4c8f27932e, 0x058aecc0081b5513⟩,
    ⟨0xec09308d65d2ca61, 0xe4ef3c859db5b714, 0x5460b71995790396, 0x0757b4b7ee98e0a1⟩,
    ⟨0x48dc6cc226718b5d, 0x963d2b54fd2b7ed3, 0xf3cd974f43322169, 0x06b82800937f8981⟩],
  #v[⟨0x606b34a60b1e9c64, 0xa044f14088fedae9, 0x73427e34ab8fbb7c, 0x003a915b18147072⟩,
    ⟨0x9a627689547bfbef, 0xc0bb609d367b7626, 0xf9bc01028ff44195, 0x054afbf1bd990043⟩,
    ⟨0xb08375edf6e762bb, 0x2c3852df2d991470, 0xb9524c7d01493107, 0x05e1ceb846fe1422⟩],
  #v[⟨0x6b2b01c1bec0814b, 0x16709e0c48e3020c, 0xbe5dff3ce06e8cb9, 0x07f751f98968212e⟩,
    ⟨0xd45cd6dfbff811e4, 0xbea7f01d226b68b6, 0xfc3180616e340536, 0x036f6b64463f7c29⟩,
    ⟨0x7ed4fe4fe8e0dbac, 0x8dd4d0e469d6703d, 0xb4511d74fe8de8b4, 0x061135c9846faf39⟩],
  #v[⟨0x7fbaad907fc912b8, 0xa4ba83cc6e0ae352, 0x59b78f6acfca9a21, 0x00b58921a3fbdbb5⟩,
    ⟨0x6e52821c2e2b1b1e, 0x211d84eb2fb27b81, 0xb9d16b61c2973847, 0x022a4f8a5cdc7474⟩,
    ⟨0xb112f810ad67036f, 0xdeb1765c61516ffc, 0xfeccbbc9a50b2cee, 0x041cf6db5d6145ed⟩],
  #v[⟨0xade9de11416b6831, 0xac6a0ff2fdfab744, 0x1cfc05fa8f4aec6f, 0x00be44689973db2b⟩,
    ⟨0x51df0b8239be148b, 0x6d148a237142dc49, 0x6489cda45128096d, 0x039bf209c4e117e1⟩,
    ⟨0x07c7eb980ea03a06, 0x2a58282643860b57, 0x2b93310b8ce37b09, 0x0209cf541e5f74fc⟩],
  #v[⟨0x8c22dd5afa95326d, 0x7232e122287036d1, 0x0bdc218ba681b6ba, 0x06b562e6005f34ee⟩,
    ⟨0x670e7a35dea38c8f, 0xa2a39c8aca11a914, 0x5dc6d5f59253a627, 0x000e8103a23902be⟩,
    ⟨0xbbf345de2d552f72, 0x3ef8ca7468d68f4f, 0x06bdc1b4d5f9bed8, 0x06a3725548c664fd⟩],
  #v[⟨0xb447b4af006a4a37, 0x11a45c0aa21eb4eb, 0x605d0f01a8eccc5f, 0x067fcd6997472e8e⟩,
    ⟨0x64c95db6ecb5cff0, 0x2a44366f77792d40, 0x4075784d28c06c16, 0x026144c95c8de363⟩,
    ⟨0x895dc1466f350239, 0x6fd875e3725061df, 0x4b3a874eb6307cda, 0x05b173c8b0eb7e9c⟩],
  #v[⟨0x370f2165c3d54ddb, 0xc448f877e53298b6, 0x87bae06ad491d391, 0x07e1c2d6fde8ac9f⟩,
    ⟨0xfa433b57ca6627a9, 0x8f74d61e7771f9e3, 0x996f451b156fe4e2, 0x04db779f3e5b7424⟩,
    ⟨0xe240eed6970993dd, 0x825c3f71114acb93, 0x713435ec06b6fed7, 0x00bb930d8a6c6583⟩],
  #v[⟨0x89e9579c046e878f, 0x99d3a08814c31c41, 0xd708467e9296fb55, 0x04472d73b2830565⟩,
    ⟨0x2cc23612b11170e2, 0x614d23739b7cb205, 0x9e10e3c883ca5ce5, 0x07ba9c303dfee2d8⟩,
    ⟨0x822548eb9c4dc4b7, 0x6356cb133e97579b, 0x0425dc9b2c1ed30e, 0x021c0e3319ede47f⟩],
  #v[⟨0x65c1d41e877eb191, 0x32e53b7dc4f49475, 0x37b09933816e2a09, 0x02cfd61139e50ddd⟩,
    ⟨0x2f30acd37e26d8e7, 0x5bdd10b3f170b0dc, 0x844544d92ee0eca6, 0x05abea18941a4976⟩,
    ⟨0xe5a751b7ce6bcc21, 0x4ea28ae28b26e6ee, 0x7a6265e44fef6f72, 0x077088fdb015c794⟩],
  #v[⟨0x120dce84e6122b73, 0x6b4ce33cddbc8446, 0x5b3e3c43cfd44307, 0x03abdc9d67723132⟩,
    ⟨0x7a602662c2d62c4d, 0x2ca94879ccfab81a, 0x2e5d00b6b83e52a5, 0x02250f430b7fe7d1⟩,
    ⟨0xbbb1efb79a25861b, 0x12660e7bd156d6ca, 0x1fb24ef76d57912b, 0x05c92ef479c11bb5⟩],
  #v[⟨0xfcf784a63a0fd5c6, 0xfd08fd4208a785cf, 0x510f616fa8b87900, 0x0235ec597391648b⟩,
    ⟨0x5523c00b372cc668, 0x396b5c0ba3376e85, 0x207be77e9d11e38f, 0x04ed4e872eb7e736⟩,
    ⟨0xfb7d861c4f275a1b, 0x3d46afa705908f68, 0xb756ef3f6331890b, 0x05f9406febca3879⟩],
  #v[⟨0x97edf441abdaa49d, 0x5f17b0384661f06d, 0x621a9f61b68873c0, 0x01d9c501d9ff1fba⟩,
    ⟨0xfa530f41c535952e, 0x69e37ba694774c4d, 0x34982c8e28d2f6e1, 0x04b0de22bbd0a585⟩,
    ⟨0xc49d6fd1b033d903, 0xd319f0e3648b2574, 0x02186aabb291eca0, 0x01b4d48bd38a3f86⟩],
  #v[⟨0x19702cefcead4bab, 0x6b6596bbd2f4e657, 0x1725d8aa67ddba62, 0x07558bbea55584bf⟩,
    ⟨0x0a44cf7a3eef17be, 0x70b157d56ece95b6, 0x561ea174600e266a, 0x01108f1a9500a52f⟩,
    ⟨0x567289b67087bf60, 0xc209fb90caab6668, 0x2becb92b4b6ae3f8, 0x008913d96a4f36b1⟩],
  #v[⟨0x23f4d8a6f32867a6, 0xca2e99f5742b6bf2, 0x16926346857dec8c, 0x06502262c51ad8f6⟩,
    ⟨0xcd3a5931d2ec0e52, 0xe962ea034378b343, 0x2889280505c915bd, 0x07cb5fcdc0089281⟩,
    ⟨0x01b221c4d2a1ce87, 0x5baea3bc96b8cd1f, 0xf90be9781a151514, 0x02eb919524a89a26⟩],
  #v[⟨0xc1c63e8de3ec3d73, 0xed0662c0161223e3, 0xeada46635e3567dc, 0x058efb6272921bc5⟩,
    ⟨0xd6955e7844d4f88e, 0x94254a1ac34acd46, 0xb436d205ffc2a395, 0x062fcd49ca9c7587⟩,
    ⟨0x06fcf837aef5313b, 0x85e5941e54bd3a21, 0xe62d9acce0b625f8, 0x0635895330838846⟩],
  #v[⟨0x629f8b41fefb12e3, 0x78a17f119d5e6e70, 0x6d47a5f4d23b92a3, 0x07da445b81e9b3d3⟩,
    ⟨0x43b7016256118343, 0xa9027882bef17389, 0x9fc5737e189d5096, 0x02b22dab62f0817e⟩,
    ⟨0xfbef432b790e50d5, 0xd5bdea769be8fcb8, 0xbacdfed1d27664d0, 0x01af01472348f395⟩],
  #v[⟨0x5b682e5ac6360309, 0x9284163c8e4986bc, 0x1de313b9390f79ec, 0x076b172dbbeec5a3⟩,
    ⟨0xf0bdb2905b3e0862, 0x9b30ddb4178d46de, 0x0f362f6cb423d200, 0x0070efaeae36f6af⟩,
    ⟨0x25a0e4117ccaeedf, 0xd28c4942b8036a1c, 0x0a39872686b84ee1, 0x006cb99b36e521ac⟩],
  #v[⟨0xfd1b8a4fc1dc6055, 0xfb3d0fe5bb3aa743, 0x0bbf9674e544bda0, 0x029fd44305a5a9a7⟩,
    ⟨0xaa6363d6619f9764, 0xa11a6778d8848142, 0x3629b184d8c36db3, 0x006b447ded1046e8⟩,
    ⟨0xc14b58f5b8989b59, 0x357cceb6946fdc51, 0xcbfcf55a77339b5d, 0x0642a8b4be4ba812⟩],
  #v[⟨0x7acd79ae1d95882a, 0xbc51a73700bd794a, 0xcc6cc6aa5b6e775c, 0x0489e0a26f65a1ee⟩,
    ⟨0x1b9d57b9a02e9200, 0x816428f45a06293c, 0xbf78ab5dc2fd1d24, 0x03b19d4ef195975b⟩,
    ⟨0x2884c52039013df5, 0x71596f9cd59e55ad, 0xa576b74790b21949, 0x07d2dd994756eacb⟩],
  #v[⟨0x02970ef0f2e8c5f3, 0x8b3327e29e9e7650, 0xf300df869823b9f1, 0x01922810cc08f50b⟩,
    ⟨0x71cbd4a88ed418ac, 0x39c04376aafff057, 0x1d46e1d79a70745b, 0x052f3afaf7c9102f⟩,
    ⟨0x376c5bcab6ea788e, 0x89552bbe53dcc46b, 0xa95260f44203086e, 0x07ccfc88e44a0507⟩],
  #v[⟨0x19e40a1ab008dd9c, 0xf5157dd8e067bc88, 0x4100228beff83823, 0x02949125939e6ad9⟩,
    ⟨0x078ba6e1912e1014, 0x72d6811dde135af4, 0x4273ce4ee6929ba3, 0x06cb64e3a0d37a6a⟩,
    ⟨0xded4bf5953837fae, 0xad43714257949cd9, 0x62f05f688129bf30, 0x00d63b53707acf89⟩],
  #v[⟨0x942092b32ef152d4, 0xbb7d7460a6965702, 0xd13bb968b4ea22d0, 0x00bcb1549c9cabb5⟩,
    ⟨0x0ca25b8d8fe798c1, 0x2792a7205ba0531a, 0xf5ead698fe76f649, 0x03d1c5233657ce31⟩,
    ⟨0x279f450b79f97516, 0x48e26a83074558d9, 0x066c2808b1e16ea4, 0x02240b9755182ee9⟩],
  #v[⟨0xc9b43ab6615a646c, 0xfe8d70882137de70, 0x0fe8e54f343cef59, 0x00cc203d8b0f90e3⟩,
    ⟨0xfa68e03c1f77910b, 0x119e937dea9d2100, 0xe061bacdc175ea9e, 0x0310c6cc475d9346⟩,
    ⟨0x97b83667049106c7, 0xcbdbe033f5786993, 0x20bc947defced0d8, 0x07f84b639f52e574⟩],
  #v[⟨0xbe4e1da8de3e164a, 0x7e9f038cb32ec35a, 0xd89c4562f57139f4, 0x0584ca7f01262c5b⟩,
    ⟨0x531f9afa78abbbde, 0xe02fdc72e01e9510, 0xaf7d02f562868be3, 0x01135eefaf69b6e4⟩,
    ⟨0x36a0d876856a99e8, 0xd350c88b56f62c6d, 0x0a50a3d33805827a, 0x0372082b8a6c0710⟩],
  #v[⟨0xc119e3d12462dfe6, 0x9674f132e33898f0, 0x87499bac1a143fc5, 0x07c3c12b819a8aad⟩,
    ⟨0x46bd9b75a23836cf, 0xc056ce9e29d602eb, 0x5b84157cfeff6822, 0x04f1354c51e8f690⟩,
    ⟨0xef3973548fbd2fca, 0x8ac360150e849950, 0x075739ba206507a0, 0x02da9f26a8271659⟩],
  #v[⟨0x5fd78dd550702843, 0x3f6a65ff50801aa7, 0x11b5ec29195e38cc, 0x0287173956a2beb1⟩,
    ⟨0x4ae6ba7f9201e126, 0x1c7f3227f6a7a4a6, 0x212420095a51c841, 0x07273101c190ff64⟩,
    ⟨0x99258ee4c98005fc, 0x749b03d3d3491696, 0x3ebeb61e500687de, 0x02dbf2a6b56b26d2⟩],
  #v[⟨0xe4b910efd706c7fb, 0xab89ef8d92530394, 0x808e67f00ab89b52, 0x0085b6cbb29739a6⟩,
    ⟨0x3e06ce26b08925a3, 0xb493fa9589fd937e, 0x1dacbcbadfd5b910, 0x03d55b5f1171efda⟩,
    ⟨0x24f6ae2a9b16e90c, 0x44f7a2f8135c2078, 0x7d16b3b295410c0e, 0x00aaedaa6ef2fa70⟩],
  #v[⟨0x5c1cd0d496ccf5e1, 0x89b80f8adc5d1891, 0x6c6331e9f1a5c4cc, 0x06aca6ebf70b1cb4⟩,
    ⟨0x77e9dd157fb27761, 0x4d5e90003e6d37c6, 0xabb010f831d403d9, 0x001678602af36c28⟩,
    ⟨0xfe60a0a8f508bad2, 0x2cd3f4b0526a88aa, 0x41b547fefdf36d4c, 0x02022036bdf687f0⟩],
  #v[⟨0x353d4e2e8d1d4af6, 0xf9b8dfe49fb63e32, 0xca664397414bdfb8, 0x007bfc350957c968⟩,
    ⟨0x3c5e2176f7ad79af, 0x81f43a499b27a06d, 0xc24ea29ccd1d15ab, 0x02d639cbd418cb9f⟩,
    ⟨0x4779569f64506e0c, 0xe0dee3369e5fbc0f, 0x88403d5b39687a1f, 0x00ecdea7f959a4d4⟩],
  #v[⟨0x1d4e34357154b558, 0xf22e5f2d28c490e2, 0xb70658e2f1992ef9, 0x03f656bdc4fefd92⟩,
    ⟨0x6594e19fddd59254, 0xfec47596f8a6f4ce, 0x2319638ccab9033d, 0x00d1b8cb1561eed3⟩,
    ⟨0x2d1e8b4e2ec1f192, 0x6f281ec2941da722, 0xf86ef6ea01545ad7, 0x0758ffc77c62e3e0⟩],
  #v[⟨0x29a591c95e6fcac5, 0x596aacd28f83c32f, 0x995386e96aeaa1b4, 0x020315ca079570df⟩,
    ⟨0x54884b316b740d8d, 0x2cfe76b84a9d1b0f, 0xcb05f3d6ff9c8d9f, 0x03e55cf341e7c280⟩,
    ⟨0x67c81203bf650c68, 0xe92c029007a06f6e, 0xeede9749739be452, 0x04d56feb32cde74f⟩],
  #v[⟨0xe8089f465403c89b, 0x497f7599fb8145d7, 0x33b6171eaa6a2544, 0x04ee807aa678a9a4⟩,
    ⟨0x0f9a8ad2ef2b3821, 0x1f365e56a1bc579d, 0x48cb5f394de2cb6e, 0x025d2bacc8f1ee75⟩,
    ⟨0xf237d15feb17bd49, 0xcd4b278811924af1, 0x9fc20051f6501268, 0x05f573de597ce170⟩],
  #v[⟨0x682cf85ddac86deb, 0x3c1e84a1dcf8b33c, 0x5826a280e053cf7a, 0x030297c3c54a505f⟩,
    ⟨0x6a052b93a8339ae8, 0xc6bc79b69b8709fe, 0x43c7526a59783f03, 0x02f5e9c47c9a86e0⟩,
    ⟨0xd4a27a416c72b84b, 0x1da7deec83e130bc, 0x29f9c23065ff8ccb, 0x01bf75c7a739da8d⟩],
  #v[⟨0xdb8e864df3c3c675, 0x29cd27fc4e91eeab, 0x5989017bd5c4cfdc, 0x060563d5f852ae87⟩,
    ⟨0x1005be1cd16ccf9e, 0xf8156c20e3131bd7, 0x0969635468daec94, 0x07a4b1d70885aa82⟩,
    ⟨0x0f39c10e59cc5852, 0xb8b85cf718cd1d40, 0xf1e201cd62aa4600, 0x0347bb025695e497⟩],
  #v[⟨0xa8aa666292e9e217, 0x2c4c9c2de413691b, 0x9e7f9381eb6ab0de, 0x06783ab1e1ef97bb⟩,
    ⟨0xd6a7bfb4e5b0dd46, 0xfd9c4cb99d534deb, 0x7b3870a07823c081, 0x0133e0280c6de90e⟩,
    ⟨0x4fd0216eb925beec, 0xa2f093695573dff9, 0x2fb5db72460b3560, 0x00865d450ce29dc4⟩],
  #v[⟨0xcd81a6b301664e57, 0x48efba06bcbb414e, 0x35526dabacf0dee9, 0x01de023f840e054a⟩,
    ⟨0x190631ab1a5388c4, 0xc7cc7b892a292d38, 0x805015a96f724c5a, 0x0055fc1e341bfdf7⟩,
    ⟨0x01a307ef8d532858, 0x162706a3e624faca, 0xe7b27bf51552d2b5, 0x02df6557bfd4a4e7⟩],
  #v[⟨0x046d73d0507f6271, 0xf8f226da95e4d629, 0xd92a6bd3e9c1d55e, 0x0113a8a66962ce08⟩,
    ⟨0x4f3367b08c008e53, 0xca1076033db5c2de, 0x7f2c889874ba5b44, 0x0271577d6ee9fa37⟩,
    ⟨0x291d311866538574, 0xf1ccb956fc673bc5, 0xb0365c09348a561e, 0x03396b33911219b6⟩],
  #v[⟨0x5398f69c8f321636, 0x6170baa3c3436e6a, 0xc8a7d89e89918930, 0x01e1392f2da08549⟩,
    ⟨0x9c876bd2e7d694ca, 0x33e313b1a9a5b6d6, 0xdf118e1d6e7c61a3, 0x0661545081032013⟩,
    ⟨0x73516f0cacdeec88, 0xf66d00533574e465, 0x776edbd432d20eb8, 0x06b14294e71cd7fb⟩],
  #v[⟨0x915cab6eb1a1d4f2, 0x1fe2a18e2406c671, 0x338b1c41df31e4e5, 0x07252fbbb06c2848⟩,
    ⟨0x7f5327cb00ff99da, 0x430c03645747621b, 0xbcf5a09807c69679, 0x03ccf71be7cc2a9a⟩,
    ⟨0x7757cd816dac919a, 0x9b39001d03444161, 0x6a9f7c97b4ceef0a, 0x029778dc707504fa⟩],
  #v[⟨0x5a8f5b27bb98d4c5, 0x491f7bbf86a26aa5, 0x33590d34e3bae36e, 0x039473f6f06bb99e⟩,
    ⟨0x7063dde91c08c027, 0x4ad92bab187e8141, 0x895caa0215f996fd, 0x07ba7c32f875b71b⟩,
    ⟨0x839e5d769bdab6b6, 0x0ed083148a5f4c92, 0x03b22aac82abf83b, 0x037c1367e49cbfc4⟩],
  #v[⟨0x7ae34157c0b2d951, 0xc2068375ff933eb3, 0xb53ffcf833cdfa05, 0x05c9eb899931d2f4⟩,
    ⟨0x31f2ca26c6e3b661, 0xc1557ffdc1ffd073, 0xc27772fb50a7d2e5, 0x05f6054a4d48698e⟩,
    ⟨0x91df64664dcd7774, 0xfd0fec827960e40a, 0xb0fab83e8c7d1e8b, 0x020e6d62a2fe0fe9⟩],
  #v[⟨0xb0d026d14ffd6aac, 0xff17adf51f528caf, 0x120c426fe0e409c2, 0x06290a56a489ad52⟩,
    ⟨0x6279f6fc315edc7c, 0x5a32ca4c10141728, 0x2267a6f7ece34270, 0x03703f16f990342c⟩,
    ⟨0x95b680dd296df3fd, 0x92e2c630f70e4391, 0x9a0c32b5a9a307ba, 0x05194962daf6679b⟩],
  #v[⟨0xd2400d9b515ee5e2, 0xb5fd4bea2aa58b98, 0x242c34617b01340f, 0x00e8eae20a79a7c1⟩,
    ⟨0xfec65242afa5cd45, 0xd00dd7c2894fae4f, 0xae28bfb28def7cd8, 0x0369058169d63091⟩,
    ⟨0x9c7b93103fd78167, 0xcfdff0973190ab18, 0x74077503ee472f22, 0x0418c963bc97195a⟩],
  #v[⟨0xd4db559720156386, 0xb8c97112d14a25b4, 0x5b28b3f4dc93167f, 0x068d07a3eefc78dc⟩,
    ⟨0x8748583a61836372, 0x5ba0b5557375003f, 0xf15a3c4241c98ba2, 0x0517e892228df2d4⟩,
    ⟨0xc9c99538792e279b, 0x74ac20ad8100c41d, 0xa150116e7932f8fe, 0x05cc0f0f6cf9be94⟩],
  #v[⟨0x1668884c0be41ec8, 0x0883543e821f0f5c, 0x29bdb1f8a648e482, 0x053d5d7863434c66⟩,
    ⟨0xf2528f67de24fdf5, 0xb072218912dd0d9d, 0xa600bf53f8101707, 0x00a158126b89e6b0⟩,
    ⟨0x8d073bed2fede503, 0x4c204bed60672b8d, 0xe582069a698323d4, 0x06b53b807265387e⟩],
  #v[⟨0xacc9e0ca2091fda0, 0xe53be83bde9601a9, 0x6de0877efd58c01b, 0x01097fb448406b7a⟩,
    ⟨0xe37ca441f5a31bec, 0x49ce1fefde66333c, 0x3902396389d67b30, 0x00cbc0ff7239d376⟩,
    ⟨0x8141ebef84280e72, 0x38ceebd64603f68a, 0x632eb43d57b5c5d8, 0x079a3d91dd8a309c⟩],
  #v[⟨0x8900e7598a368db9, 0x1185078218eceb93, 0x5300f74e8f6de8fe, 0x0023fb472fe57513⟩,
    ⟨0x23ebda18bfb67c2a, 0x7a6ba87cc33e8a8e, 0xa4c63a6b9494c0bd, 0x07ac73134016d2a8⟩,
    ⟨0x5df6e31c3dcf8f14, 0xc163d9ab17bb035d, 0x03f1b5c5ee2485cc, 0x019a16068c3eac9c⟩],
  #v[⟨0x92134d90def073ea, 0x20ee86a925725ac3, 0x4d4ef9fd16347528, 0x01f24b4356a6bbfd⟩,
    ⟨0x7305971592333d36, 0x528fb70727f35d81, 0xadd59b6b4d11c60a, 0x0003e44e7f7aeea6⟩,
    ⟨0xcbd94cd7513d394e, 0xe85987ae57bc9807, 0x14535a511ed3eb4f, 0x05f93b02f8267414⟩],
  #v[⟨0x5ca2d3bada29523a, 0xfd1cc76e670607e3, 0xd71c3d51d4197fa3, 0x00f0a0a88db99247⟩,
    ⟨0x64bdde3e77608db0, 0xd2b6f2e80626af65, 0xacac1e211431fd4c, 0x03432226916d31f3⟩,
    ⟨0xa3830528d59cf919, 0xb0b82940ef5f393c, 0x8175192845a7ad74, 0x055625941bfea6f4⟩],
  #v[⟨0x8e2e585e318e20a4, 0x783e9b92f9276b85, 0x7dfe4f8cb3ef1b39, 0x00ddf48695b20447⟩,
    ⟨0xd3194578b08ae8e3, 0x434ee50d4953e7c5, 0x8851a679ab2a1490, 0x0260730a657ff8f3⟩,
    ⟨0xbcd206842b961aa9, 0xd7132775b398d324, 0x96283840bdb79ba6, 0x04cfd231373aa46d⟩],
  #v[⟨0x81e963de57eff25d, 0x7ebc659e74fd48f9, 0xf14fa0bc0b2191a2, 0x03203843c41cd453⟩,
    ⟨0x93705872e647cc46, 0x260f5e77a54b0062, 0xfb8435d1c86bf76c, 0x0002c2f6ae5624d1⟩,
    ⟨0x1535022014765f06, 0x85b0e142b6975238, 0xb3e561384ef2e73a, 0x0780225456e63903⟩],
  #v[⟨0x41cc432a75c81887, 0x3082fc954b9a9ff6, 0xfd21b07f8e296061, 0x07f602ec1a80a051⟩,
    ⟨0xf0c8c118ca7e6bca, 0x23fe77cd7c1ab432, 0xb60f6aaf7022b7d3, 0x062561b0a0a72239⟩,
    ⟨0xb9b84a8a03b70bc8, 0x2450c186d093754c, 0xa69b05dea16b1cf2, 0x0604fe5a6a22344a⟩],
  #v[⟨0x8682eaf88aef2b7b, 0x6eada5995905189f, 0xd3dc140bf5f9b76f, 0x01cf9987a4044716⟩,
    ⟨0xee42ce22cbfbacbf, 0xdebee233e91b50e9, 0x3db47a4bdd60cf69, 0x06bc0b2487c1eece⟩,
    ⟨0xcbf87ab7ea0792e6, 0x7620c51356d2c6ad, 0xa11403b93e90338b, 0x02f5dbb5055eb749⟩],
  #v[⟨0x8489e5fc4a550f61, 0x5f63b8a623a9cf31, 0x29743c43883d59c4, 0x0446328f4dddae65⟩,
    ⟨0x58584d2c48f5af25, 0x25817b43d3583999, 0xca6c4010fb4b481a, 0x04ba30c5240cde5b⟩,
    ⟨0xe39a32f89c2c8a89, 0x708351d2cf19af5f, 0xc89209117734ae85, 0x05f5275f76425b15⟩],
  #v[⟨0x15e1be8e6af2fc17, 0x993cdda4eb8cb924, 0xe18c7f98df3b2f7b, 0x0576f3b5156f4763⟩,
    ⟨0x93c0e8e12d35ef3d, 0xf84a61719ed5adbb, 0xed5a44b55a5b026d, 0x011dc3f15cba928a⟩,
    ⟨0xa6442b8feda04dca, 0xe1c1d9ea047d75f8, 0xd9896403ae4f543a, 0x044c40e6bd52e91a⟩],
  #v[⟨0xc914ad01166026d8, 0x1954bf90fe9ea4e2, 0xbd0ccbf4974e80ac, 0x01836d733a54013e⟩,
    ⟨0xf84ca02ce731b3ac, 0x7611df8037761f00, 0xa8159d306ef08472, 0x03c553be9776b628⟩,
    ⟨0xe342f5017076a059, 0x401ae11a6d757843, 0xda1c7b87e0436b1b, 0x006ce94781c1a23f⟩],
  #v[⟨0x371cc2daa0acd0ed, 0xe107f457812effb7, 0x0253be9f00f4e6b9, 0x0381ec71fbdef316⟩,
    ⟨0xfe0ffa7bf2a8f1a1, 0xd4fb574aa687bafd, 0x6490d847320d9f3c, 0x01844da9cc0eeadc⟩,
    ⟨0x2acfd7f9b65a812f, 0xedf9710104745968, 0xbb27fea5b401483d, 0x07a8bf471f902d5a⟩],
  #v[⟨0x6b0d063839e56327, 0x6f5a9cdff7aecb6e, 0x41915fb51ac17445, 0x0633b6fb004de624⟩,
    ⟨0x7535fd70fbc50ab6, 0xbbe546ba88fed8b1, 0x771200382bfc6d17, 0x0179ee5cec496194⟩,
    ⟨0x2cae194330bf8c42, 0xb0312446f07435ac, 0xea9891b42d565256, 0x02806c0786185986⟩],
  #v[⟨0x56ac9bb6ee041393, 0x603bb2cdfd26bfa3, 0x90c7a6b8af194b8b, 0x0438703d948708ae⟩,
    ⟨0xa585d58a920035af, 0x1c56f4e02225c628, 0x7153bd3a482b7f6e, 0x024446628f56029d⟩,
    ⟨0xbd96025e5435e259, 0xae48f6606790d817, 0xb0685cdeeea3a253, 0x04c2a76e5ce832e8⟩],
  #v[⟨0x70983b8caa0e0300, 0x57d5e4ce1ab122d3, 0x92933c079b148aed, 0x078a233235209945⟩,
    ⟨0xb87070ba51ec22c0, 0xadce1aa691b19e6d, 0x51144ea5937dd07c, 0x079ca6c5e1025b21⟩,
    ⟨0x314e48922af79c5d, 0x4a442ebfd1ac5d17, 0xf952d9d34f8d6bd8, 0x06b2e4a46e37af3c⟩],
  #v[⟨0x8e3529e0d03435c2, 0x1ca7d443f11e34a1, 0xb6805d93d3d8d74e, 0x00305d6cd95cc2ea⟩,
    ⟨0x15c7c17b37fbf9a9, 0xabb7aea70cc624a4, 0xb39743ed23f8956c, 0x06097b4b8b90db14⟩,
    ⟨0xf96288707c18893f, 0xd3bdcc90865b0f0a, 0x845bdb98373e77da, 0x0064e1b3f16c26c8⟩],
  #v[⟨0x7f1579ae911fd335, 0x21c56014af2ffdf5, 0x23384d841221b734, 0x0649fafe673f21e6⟩,
    ⟨0xd1ba288a77fefe30, 0x2baa2f4d19005a49, 0x6b294404e849722f, 0x07d806dccbf1a269⟩,
    ⟨0x59119c44aafc7522, 0x7a03f48f443be6d6, 0xc0b3e2db1a9a235d, 0x05951a37da53e3bb⟩],
  #v[⟨0xc816a1607a907731, 0x10496a31bdacb542, 0x4d1912c3554ae3d0, 0x06d87fa479fb5952⟩,
    ⟨0x462a3ac892acc9b2, 0x0a712a0b12bb6fc9, 0xd473ad73466b4e8c, 0x01451cccd4200fa9⟩,
    ⟨0xd82dd1efdc0763da, 0x832ca0faa15e1c4e, 0x07642535f1ca9b03, 0x03ca1b6400b3e510⟩],
  #v[⟨0xf993a99c7a1a4d95, 0xb0dd024ff4162539, 0x60ad1516a8f13592, 0x052c55735b2f0a65⟩,
    ⟨0x62951d65f6b924cd, 0xe750bd5ce3e9fa5e, 0xf0149d1dee29617d, 0x07e04de60aa80132⟩,
    ⟨0x3edf63291c0a5495, 0x303ef29e26f28922, 0xe47c4c8fab71c8f8, 0x00271784e6920a68⟩],
  #v[⟨0x6b49514af43d0c69, 0xc8afe93f17b7f0e5, 0x60a04b8f0adaa603, 0x05c7c19061a84d59⟩,
    ⟨0x38e4436f5482eafe, 0x090943c2959dea1b, 0x419da337cb79061e, 0x0172db5affe783af⟩,
    ⟨0x46a9e061a2cb9456, 0x21a7ecbadf188097, 0x0eac9fe4082916f0, 0x0518b7975a6d8d31⟩],
  #v[⟨0x755a0315f1e196db, 0xd74b8ae5e37b34e8, 0xd4bbc2440a9f5061, 0x020c5539dc45dd56⟩,
    ⟨0x5a9d8bc213b90b14, 0xa977b47208283cf3, 0x08bc7d516e80efc3, 0x01ea6f5fb309fa4a⟩,
    ⟨0x7d1f766541e29ded, 0xfd424b5de167c725, 0xfdd8ddd8ba9cfe2e, 0x050ce323c5128dc7⟩],
  #v[⟨0x8919284c613cb7d8, 0x5b865f5b7d1b497a, 0x695538b41d3c2821, 0x0401e37d0e276547⟩,
    ⟨0x0fab9cf57c57397b, 0x55daa12cc61261cc, 0x7f2893056fc58802, 0x0645a0de30acc311⟩,
    ⟨0x76b66ae7fa3d495b, 0xd4fdc9d0d69219f6, 0xd9e988d75f09f698, 0x069bc3841eb0a310⟩],
  #v[⟨0x84baf523f136bdc6, 0x7cf0ae0c455cda54, 0x4bdd47c38fe72db4, 0x002684bbe315ad2c⟩,
    ⟨0xe4acb821fd8a13ee, 0x88858c2afa664365, 0x68202e8d34e5595a, 0x011e0f83c547ca5c⟩,
    ⟨0xcac945f1097b82ef, 0xd0f86ac66c1e5a5e, 0x5966567ceec34315, 0x04af4a7635f8c751⟩],
  #v[⟨0x5c72b11f4c74b271, 0x1dc48894d2bb4622, 0x3cb7158908ccc18b, 0x04fba58cf8aaf489⟩,
    ⟨0x38b0f44c8a2a0e20, 0x9a7f89be0ead679a, 0x8cc90da2e664f8c2, 0x0397c4c169115b46⟩,
    ⟨0x20998f59ec7bacff, 0x1f326dd7f32be22e, 0xbad397fa5dd13c50, 0x006563b9ebb6450d⟩],
  #v[⟨0x36cd79e9cb817165, 0xfec48562076dd09c, 0xea81d307f4c79f9a, 0x0376edb238f7b630⟩,
    ⟨0x58584cda96e2e061, 0xb337504039690eb8, 0xf29ed22addcd50a1, 0x060d4208bb50eb15⟩,
    ⟨0x344a52f1df9a9210, 0x0f30da46918ab020, 0xdbff1019dc3465ec, 0x06a37d569d2fbc73⟩],
  #v[⟨0x429130371ac63b1a, 0x1dc512f1df073c1b, 0xf412083ff35d2382, 0x00d3b174c7290c6b⟩,
    ⟨0x9fe55e525b980373, 0x34d974919689fb48, 0x4b46eb2a5c3b8146, 0x0226ed3d76347745⟩,
    ⟨0x30e8b0080d218513, 0xf06f4d79bd7ffa19, 0xe0e7a23d33d2fd9e, 0x05f3997e7dafcb2d⟩],
  #v[⟨0x8348c3fae8fdf14d, 0x04f886f7f9d3c164, 0x434df335a10bbac5, 0x07c5eec716d94634⟩,
    ⟨0xf63d2f55f57e1a7c, 0x8a89da85553f871e, 0xe7e24fd22c0f9ad6, 0x0053cc30d7fe0f84⟩,
    ⟨0xfefa4cd58c4ec8fa, 0x9474a24f6e83b268, 0x19b95769f4741856, 0x0368821ee335d718⟩],
  #v[⟨0xf46d6a242bfeb7a1, 0x72c6d0a61538bdff, 0x35119816883040da, 0x005334f75b052c02⟩,
    ⟨0xcd49d6dca50aa431, 0x8f80ee4af2ec6547, 0xc1020cca9d871ae6, 0x05d0af4fcbd9e056⟩,
    ⟨0x5ab99537901b1e65, 0xb4699dc00f1d53ba, 0x4114a19c46d24e00, 0x030131bce2fba569⟩],
  #v[⟨0x4957660f2e788965, 0x538f93f13161be3c, 0xb34c0750ed2e641c, 0x05646a95a7c1ae86⟩,
    ⟨0xc90df47b7d4ec01a, 0x78581f5259692b52, 0x9fac36230a11f43e, 0x04b9f291d7b430c7⟩,
    ⟨0xd890e74abae01a13, 0x3e00becf6ceb4d73, 0x1a98f19127072dc8, 0x05006d393d3480f4⟩],
  #v[⟨0x202dc3b26a679d80, 0xacf4f702e6b346fd, 0x0e7cb8a115143106, 0x062c9d42199f3b26⟩,
    ⟨0xbf1d9ac2dc5717a5, 0x7606836eabd8af54, 0xf180b1a8a13b7f2c, 0x051274d092db5099⟩,
    ⟨0x861a8db0bfff0c5b, 0xf415e14f0d9cdbed, 0x7ad0fb7aaa4ca528, 0x061fc552b8eb75e1⟩]]

end Starknet
end Hades

end FieldSponge
